import Rehearsal.Text.Runs

/-!
# Breaks

What a code point does where a text is cut into characters as readers see them, into words
and into sentences. A value is written as its short name; `XX` stands for none.
-/

namespace Rehearsal

namespace Text

inductive Break where
  | cluster
  | word
  | sentence
  deriving DecidableEq, Repr, Inhabited

namespace Break

def clusterNames : List (String × List String) := [
  ("CN", ["cn", "control"]), ("CR", ["cr"]), ("EX", ["ex", "extend"]), ("L", ["l"]),
  ("LF", ["lf"]), ("LV", ["lv"]), ("LVT", ["lvt"]), ("PP", ["pp", "prepend"]),
  ("RI", ["ri", "regionalindicator"]), ("SM", ["sm", "spacingmark"]), ("T", ["t"]), ("V", ["v"]),
  ("ZWJ", ["zwj"])]

def wordNames : List (String × List String) := [
  ("CR", ["cr"]), ("DQ", ["dq", "doublequote"]), ("EX", ["ex", "extendnumlet"]),
  ("Extend", ["extend"]), ("FO", ["fo", "format"]), ("HL", ["hl", "hebrewletter"]),
  ("KA", ["ka", "katakana"]), ("LE", ["le", "aletter"]), ("LF", ["lf"]),
  ("MB", ["mb", "midnumlet"]), ("ML", ["ml", "midletter"]), ("MN", ["mn", "midnum"]),
  ("NL", ["nl", "newline"]), ("NU", ["nu", "numeric"]), ("RI", ["ri", "regionalindicator"]),
  ("SQ", ["sq", "singlequote"]), ("WSegSpace", ["wsegspace"]), ("ZWJ", ["zwj"])]

def sentenceNames : List (String × List String) := [
  ("AT", ["at", "aterm"]), ("CL", ["cl", "close"]), ("CR", ["cr"]), ("EX", ["ex", "extend"]),
  ("FO", ["fo", "format"]), ("LE", ["le", "oletter"]), ("LF", ["lf"]), ("LO", ["lo", "lower"]),
  ("NU", ["nu", "numeric"]), ("SC", ["sc", "scontinue"]), ("SE", ["se", "sep"]), ("SP", ["sp"]),
  ("ST", ["st", "sterm"]), ("UP", ["up", "upper"])]

def clusterRuns : Array (Nat × String) := Runs.ofLines [
  "CN10LF1CN2CR1CN18XX95CN33XX13CN1XX594EX112XX275EX7XX263EX45XX1EX1XX1EX2XX1EX2XX1EX1XX56PP6",
  "XX10EX11XX1CN1XX46EX21XX16EX1XX101EX7PP1XX1EX6XX2EX2XX1EX4XX33PP1XX1EX1XX30EX27XX91EX11XX58",
  "EX9XX9EX1XX24EX4XX1EX9XX1EX3XX1EX5XX43EX3XX52PP2XX5EX9XX42EX24PP1EX32SM1XX54EX1SM1EX1XX1SM3",
  "EX8SM4EX1SM2XX1EX7XX10EX2XX29EX1SM2XX56EX1XX1EX1SM2EX4XX2SM2XX2SM2EX1XX9EX1XX10EX2XX26EX1XX2",
  "EX2SM1XX56EX1XX1SM3EX2XX4EX2XX2EX3XX3EX1XX30EX2XX3EX1XX11EX2SM1XX56EX1XX1SM3EX5XX1EX2SM1XX1",
  "SM2EX1XX20EX2XX22EX6XX1EX1SM2XX56EX1XX1EX2SM1EX4XX2SM2XX2SM2EX1XX7EX3XX10EX2XX30EX1XX59EX1",
  "SM1EX1SM2XX3SM3XX1SM3EX1XX9EX1XX40EX1SM3EX1XX55EX1XX1EX3SM4XX1EX3XX1EX4XX7EX2XX11EX2XX29EX1",
  "SM2XX56EX1XX1SM1EX2SM1EX1SM2XX1EX3XX1EX4XX7EX2XX11EX2XX15SM1XX12EX2SM2XX55EX2XX1EX1SM2EX4XX1",
  "SM3XX1SM3EX1PP1XX8EX1XX10EX2XX29EX1SM2XX70EX1XX4EX1SM2EX3XX1EX1XX1SM7EX1XX18SM2XX61EX1XX1SM1",
  "EX7XX12EX8XX98EX1XX1SM1EX9XX11EX7XX73EX2XX27EX1XX1EX1XX1EX1XX4SM2XX49EX14SM1EX5XX1EX2XX5EX11",
  "XX1EX36XX9EX1XX102EX4SM1EX6XX1EX2SM2EX2XX23SM2EX2XX4EX3XX16EX4XX13EX1XX1SM1EX2XX6EX1XX15EX1",
  "XX98L96V72T88XX349EX3XX946EX4XX28EX3XX29EX2XX30EX2XX64EX2SM1EX7SM8EX1SM2EX11XX9EX1XX45EX3CN1",
  "EX1XX117EX2XX34EX1XX118EX3SM4EX2SM3XX4SM2EX1SM6EX3XX219EX2SM2EX1XX57SM1EX1SM1EX7XX1EX1XX1EX1",
  "XX2EX8SM6EX10XX2EX1XX48EX31XX49EX4SM1XX47EX10SM4EX3XX38EX9XX12EX2SM1XX30SM1EX4SM2EX6XX56EX1",
  "SM1EX2SM3EX1SM1EX5XX48SM8EX8SM2EX2XX152EX3XX1EX13SM1EX7XX4EX1XX6EX1XX2SM1EX2XX198EX64XX523",
  "CN1EX1ZWJ1CN2XX24CN7XX49CN16XX96EX33XX3070EX3XX141EX1XX96EX32XX554EX6XX105EX2XX30164EX4XX1",
  "EX10XX32EX2XX80EX2XX272EX1XX3EX1XX4EX1XX23SM2EX2SM1XX4EX1XX83SM2XX50SM16EX2XX26EX18XX13EX1",
  "XX38EX8XX25EX11SM1EX1XX12L29XX3EX3SM1XX47EX1SM2EX4SM2EX2SM2EX1XX36EX1XX67EX6SM2EX2SM2EX2XX12",
  "EX1XX8EX1SM1XX46EX1XX51EX1XX1EX3XX2EX2XX5EX2XX1EX1XX41SM1EX2SM2XX5SM1EX1XX236SM2EX1SM2EX1SM2",
  "XX1SM1EX1XX18LV1LVT27LV1LVT27LV1LVT27LV1LVT27LV1LVT27LV1LVT27LV1LVT27LV1LVT27LV1LVT27LV1",
  "LVT27LV1LVT27LV1LVT27LV1LVT27LV1LVT27LV1LVT27LV1LVT27LV1LVT27LV1LVT27LV1LVT27LV1LVT27LV1",
  "LVT27LV1LVT27LV1LVT27LV1LVT27LV1LVT27LV1LVT27LV1LVT27LV1LVT27LV1LVT27LV1LVT27LV1LVT27LV1",
  "LVT27LV1LVT27LV1LVT27LV1LVT27LV1LVT27LV1LVT27LV1LVT27LV1LVT27LV1LVT27LV1LVT27LV1LVT27LV1",
  "LVT27LV1LVT27LV1LVT27LV1LVT27LV1LVT27LV1LVT27LV1LVT27LV1LVT27LV1LVT27LV1LVT27LV1LVT27LV1",
  "LVT27LV1LVT27LV1LVT27LV1LVT27LV1LVT27LV1LVT27LV1LVT27LV1LVT27LV1LVT27LV1LVT27LV1LVT27LV1",
  "LVT27LV1LVT27LV1LVT27LV1LVT27LV1LVT27LV1LVT27LV1LVT27LV1LVT27LV1LVT27LV1LVT27LV1LVT27LV1",
  "LVT27LV1LVT27LV1LVT27LV1LVT27LV1LVT27LV1LVT27LV1LVT27LV1LVT27LV1LVT27LV1LVT27LV1LVT27LV1",
  "LVT27LV1LVT27LV1LVT27LV1LVT27LV1LVT27LV1LVT27LV1LVT27LV1LVT27LV1LVT27LV1LVT27LV1LVT27LV1",
  "LVT27LV1LVT27LV1LVT27LV1LVT27LV1LVT27LV1LVT27LV1LVT27LV1LVT27LV1LVT27LV1LVT27LV1LVT27LV1",
  "LVT27LV1LVT27LV1LVT27LV1LVT27LV1LVT27LV1LVT27LV1LVT27LV1LVT27LV1LVT27LV1LVT27LV1LVT27LV1",
  "LVT27LV1LVT27LV1LVT27LV1LVT27LV1LVT27LV1LVT27LV1LVT27LV1LVT27LV1LVT27LV1LVT27LV1LVT27LV1",
  "LVT27LV1LVT27LV1LVT27LV1LVT27LV1LVT27LV1LVT27LV1LVT27LV1LVT27LV1LVT27LV1LVT27LV1LVT27LV1",
  "LVT27LV1LVT27LV1LVT27LV1LVT27LV1LVT27LV1LVT27LV1LVT27LV1LVT27LV1LVT27LV1LVT27LV1LVT27LV1",
  "LVT27LV1LVT27LV1LVT27LV1LVT27LV1LVT27LV1LVT27LV1LVT27LV1LVT27LV1LVT27LV1LVT27LV1LVT27LV1",
  "LVT27LV1LVT27LV1LVT27LV1LVT27LV1LVT27LV1LVT27LV1LVT27LV1LVT27LV1LVT27LV1LVT27LV1LVT27LV1",
  "LVT27LV1LVT27LV1LVT27LV1LVT27LV1LVT27LV1LVT27LV1LVT27LV1LVT27LV1LVT27LV1LVT27LV1LVT27LV1",
  "LVT27LV1LVT27LV1LVT27LV1LVT27LV1LVT27LV1LVT27LV1LVT27LV1LVT27LV1LVT27LV1LVT27LV1LVT27LV1",
  "LVT27LV1LVT27LV1LVT27LV1LVT27LV1LVT27LV1LVT27LV1LVT27LV1LVT27LV1LVT27LV1LVT27LV1LVT27LV1",
  "LVT27LV1LVT27LV1LVT27LV1LVT27LV1LVT27LV1LVT27LV1LVT27LV1LVT27LV1LVT27LV1LVT27LV1LVT27LV1",
  "LVT27LV1LVT27LV1LVT27LV1LVT27LV1LVT27LV1LVT27LV1LVT27LV1LVT27LV1LVT27LV1LVT27LV1LVT27LV1",
  "LVT27LV1LVT27LV1LVT27LV1LVT27LV1LVT27LV1LVT27LV1LVT27LV1LVT27LV1LVT27LV1LVT27LV1LVT27LV1",
  "LVT27LV1LVT27LV1LVT27LV1LVT27LV1LVT27LV1LVT27LV1LVT27LV1LVT27LV1LVT27LV1LVT27LV1LVT27LV1",
  "LVT27LV1LVT27LV1LVT27LV1LVT27LV1LVT27LV1LVT27LV1LVT27LV1LVT27LV1LVT27LV1LVT27LV1LVT27LV1",
  "LVT27LV1LVT27LV1LVT27LV1LVT27LV1LVT27LV1LVT27LV1LVT27LV1LVT27LV1LVT27LV1LVT27LV1LVT27LV1",
  "LVT27LV1LVT27LV1LVT27LV1LVT27LV1LVT27LV1LVT27LV1LVT27LV1LVT27LV1LVT27LV1LVT27LV1LVT27LV1",
  "LVT27LV1LVT27LV1LVT27LV1LVT27LV1LVT27LV1LVT27LV1LVT27LV1LVT27LV1LVT27LV1LVT27LV1LVT27LV1",
  "LVT27LV1LVT27LV1LVT27LV1LVT27LV1LVT27LV1LVT27LV1LVT27LV1LVT27LV1LVT27LV1LVT27LV1LVT27LV1",
  "LVT27LV1LVT27LV1LVT27LV1LVT27LV1LVT27LV1LVT27LV1LVT27LV1LVT27LV1LVT27LV1LVT27LV1LVT27LV1",
  "LVT27LV1LVT27LV1LVT27LV1LVT27LV1LVT27LV1LVT27LV1LVT27LV1LVT27LV1LVT27LV1LVT27LV1LVT27LV1",
  "LVT27LV1LVT27LV1LVT27LV1LVT27LV1LVT27LV1LVT27LV1LVT27LV1LVT27LV1LVT27LV1LVT27LV1LVT27LV1",
  "LVT27LV1LVT27LV1LVT27LV1LVT27LV1LVT27LV1LVT27LV1LVT27LV1LVT27LV1LVT27LV1LVT27LV1LVT27LV1",
  "LVT27LV1LVT27LV1LVT27LV1LVT27LV1LVT27LV1LVT27LV1LVT27LV1LVT27LV1LVT27LV1LVT27LV1LVT27LV1",
  "LVT27LV1LVT27LV1LVT27LV1LVT27LV1LVT27LV1LVT27LV1LVT27LV1LVT27LV1LVT27LV1LVT27LV1LVT27LV1",
  "LVT27LV1LVT27LV1LVT27LV1LVT27LV1LVT27LV1LVT27LV1LVT27LV1LVT27LV1LVT27LV1LVT27LV1LVT27LV1",
  "LVT27LV1LVT27LV1LVT27LV1LVT27LV1LVT27LV1LVT27LV1LVT27LV1LVT27LV1LVT27LV1LVT27LV1LVT27LV1",
  "LVT27LV1LVT27LV1LVT27LV1LVT27LV1LVT27XX12V23XX4T49XX8994EX1XX737EX16XX16EX16XX207CN1XX158EX2",
  "XX80CN12XX513EX1XX226EX1XX149EX5XX1670EX3XX1EX2XX5EX4XX40EX3XX4EX1XX165EX2XX573EX4XX65EX5",
  "XX317EX2XX79EX4XX70EX11XX49EX4XX122SM1EX1SM1XX53EX15XX41EX1XX2EX2XX10EX3SM1XX45SM3EX4SM2EX2",
  "XX2PP1XX4EX1XX10PP1XX50EX3XX36EX5SM1EX8XX16SM2XX44EX1XX12EX2SM1XX48SM3EX9SM1EX1XX1PP2XX5EX4",
  "XX1SM1EX1XX92SM3EX3SM2EX4XX6EX1XX2EX1XX157EX1SM3EX8XX21EX2SM2XX55EX2XX1EX1SM1EX1SM4XX2SM2XX2",
  "SM2EX1XX9EX1XX10SM2XX2EX7XX3EX5XX67EX1SM2EX6XX1EX1XX2EX1XX1EX3SM1XX1SM2EX3PP1EX1XX14EX2XX82",
  "SM3EX8SM2EX3SM1EX1XX23EX1XX81EX1SM2EX6SM1EX1SM2EX1SM1EX2SM1EX2XX235EX1SM2EX4XX2SM4EX2SM1EX2",
  "XX27EX2XX82SM3EX8SM2EX1SM1EX2XX106EX1SM1EX1SM2EX8XX101EX1SM1EX1XX2EX4SM1EX5XX256SM3EX9SM1EX2",
  "XX245EX1SM5XX1SM2XX2EX4PP1SM1PP1SM1EX1XX141SM3EX4XX2EX2SM4EX1XX3SM1XX28EX10XX40EX6SM1PP1EX4",
  "XX8EX1XX9EX6SM2EX3XX40PP6EX13SM1EX2XX405SM1EX7XX1EX6SM1EX1XX82EX22XX1SM1EX7SM1EX2SM1EX2XX122",
  "EX6XX3EX1XX1EX2XX1EX7PP1EX1XX66SM5XX1EX2XX1SM2EX1SM1EX1XX347EX2SM2XX9EX2PP1SM1XX48SM2EX5XX3",
  "SM2EX3XX23EX1XX5333CN16EX1XX6EX15XX11464EX12SM3EX3XX2496EX5XX59EX7XX556V1XX3V4XX484EX1XX1",
  "SM55XX7EX4XX81EX1XX11EX2XX19627EX2XX1CN4XX4700EX46XX2EX23XX542EX5XX3EX6CN8EX8XX2EX7XX30EX4",
  "XX148EX3XX1979EX55XX4EX50XX8EX1XX14EX1XX22EX5XX1EX15XX1360EX7XX1EX17XX2EX7XX1EX2XX1EX5XX100",
  "EX1XX160EX7XX375EX1XX61EX4XX508EX4XX254EX2XX736EX7XX109EX7XX2203RI26XX507EX5XX789504CN32EX96",
  "CN128EX240CN3600XX192512"]

def wordRuns : Array (Nat × String) := Runs.ofLines [
  "XX10LF1NL2CR1XX18WSegSpace1XX1DQ1XX4SQ1XX4MN1XX1MB1XX1NU10ML1MN1XX5LE26XX4EX1XX1LE26XX10NL1",
  "XX36LE1XX2FO1XX7LE1XX1ML1XX2LE1XX5LE23XX1LE31XX1LE480XX6LE34Extend112LE5XX1LE2XX2LE4MN1LE1",
  "XX6LE1ML1LE3XX1LE1XX1LE20XX1LE83XX1LE139XX1Extend7LE166XX1LE38XX2LE4XX1LE1ML1LE41MN1LE1XX6",
  "Extend45XX1Extend1XX1Extend2XX1Extend2XX1Extend1XX8HL27XX4HL4LE1ML1XX11NU6XX6MN2XX2Extend11",
  "XX1FO1XX3LE43Extend21NU10XX1NU1MN1XX1LE2Extend1LE99XX1LE1Extend7NU1XX1Extend6LE2Extend2XX1",
  "Extend4LE2NU10LE3XX2LE1XX15LE2Extend1LE30Extend27XX2LE89Extend11LE1XX14NU10LE33Extend9LE2XX2",
  "MN1XX1LE1XX2Extend1XX2LE22Extend4LE1Extend9LE1Extend3LE1Extend5XX18LE25Extend3XX4LE11XX5LE24",
  "XX1LE6XX1NU2XX5Extend9LE42Extend24NU1Extend33LE54Extend3LE1Extend18LE1Extend7LE10Extend2XX2",
  "NU10XX1LE16Extend3XX1LE8XX2LE2XX2LE22XX1LE7XX1LE1XX3LE4XX2Extend1LE1Extend7XX2Extend2XX2",
  "Extend3LE1XX8Extend1XX4LE2XX1LE3Extend2XX2NU10LE2XX10LE1XX1Extend1XX2Extend3XX1LE6XX4LE2XX2",
  "LE22XX1LE7XX1LE2XX1LE2XX1LE2XX2Extend1XX1Extend5XX4Extend2XX2Extend3XX3Extend1XX7LE4XX1LE1",
  "XX7NU10Extend2LE3Extend1XX11Extend3XX1LE9XX1LE3XX1LE22XX1LE7XX1LE2XX1LE5XX2Extend1LE1Extend8",
  "XX1Extend3XX1Extend3XX2LE1XX15LE2Extend2XX2NU10XX9LE1Extend6XX1Extend3XX1LE8XX2LE2XX2LE22XX1",
  "LE7XX1LE2XX1LE5XX2Extend1LE1Extend7XX2Extend2XX2Extend3XX7Extend3XX4LE2XX1LE3Extend2XX2NU10",
  "XX1LE1XX16Extend1LE1XX1LE6XX3LE3XX1LE4XX3LE2XX1LE1XX1LE2XX3LE2XX3LE3XX3LE12XX4Extend5XX3",
  "Extend3XX1Extend4XX2LE1XX6Extend1XX14NU10XX16Extend5LE8XX1LE3XX1LE23XX1LE16XX2Extend1LE1",
  "Extend7XX1Extend3XX1Extend4XX7Extend2XX1LE3XX2LE1XX2LE2Extend2XX2NU10XX16LE1Extend3XX1LE8XX1",
  "LE3XX1LE23XX1LE10XX1LE5XX2Extend1LE1Extend7XX1Extend3XX1Extend4XX7Extend2XX6LE2XX1LE2Extend2",
  "XX2NU10XX1LE2Extend1XX12Extend4LE9XX1LE3XX1LE41Extend2LE1Extend7XX1Extend3XX1Extend4LE1XX5",
  "LE3Extend1XX7LE3Extend2XX2NU10XX10LE6XX1Extend3XX1LE18XX3LE24XX1LE9XX1LE1XX2LE7XX3Extend1XX4",
  "Extend6XX1Extend1XX1Extend8XX6NU10XX2Extend2XX61Extend1XX2Extend7XX12Extend8XX1NU10XX87",
  "Extend1XX2Extend9XX11Extend7XX1NU10XX38LE1XX23Extend2XX6NU10XX11Extend1XX1Extend1XX1Extend1",
  "XX4Extend2LE8XX1LE36XX4Extend20XX1Extend2LE5Extend11XX1Extend36XX9Extend1XX100Extend20XX1",
  "NU10XX12Extend4XX4Extend3XX1Extend3XX2Extend7XX3Extend4XX13Extend12XX1Extend1NU10Extend4XX2",
  "LE38XX1LE1XX5LE1XX2LE43XX1LE333XX1LE4XX2LE7XX1LE1XX1LE4XX2LE41XX1LE4XX2LE33XX1LE4XX2LE7XX1",
  "LE1XX1LE4XX2LE15XX1LE57XX1LE4XX2LE67XX2Extend3XX32LE16XX16LE86XX2LE6XX3LE620XX2LE17",
  "WSegSpace1LE26XX5LE75XX3LE11XX7LE18Extend4XX9LE19Extend3XX11LE18Extend2XX12LE13XX1LE3XX1",
  "Extend2XX64Extend32XX9Extend1XX2NU10XX33Extend3FO1Extend1NU10XX6LE89XX7LE5Extend2LE34Extend1",
  "LE1XX5LE70XX10LE31XX1Extend12XX4Extend12XX10NU10XX128NU10XX38LE23Extend5XX57Extend10XX1",
  "Extend29XX2Extend1NU10XX6NU10XX22Extend31XX49Extend5LE47Extend17LE8XX3NU10XX17Extend9XX12",
  "Extend3LE30Extend13LE2NU10LE44Extend14XX12LE36Extend20XX8NU10XX3LE3NU10LE36XX2LE11XX5LE43XX2",
  "LE3XX16Extend3XX1Extend21LE4Extend1LE6Extend1LE2Extend3LE1XX5LE192Extend64LE278XX2LE6XX2LE38",
  "XX2LE6XX2LE8XX1LE1XX1LE1XX1LE1XX1LE31XX2LE53XX1LE7XX1LE1XX3LE3XX1LE7XX3LE4XX2LE6XX4LE13XX5",
  "LE3XX1LE7XX3WSegSpace7XX1WSegSpace3XX1Extend1ZWJ1FO2XX8MB2XX10MB1XX2ML1NL2FO5EX1XX15EX2XX3",
  "MN1XX15EX1XX10WSegSpace1FO5XX1FO10XX1LE1XX13LE1XX16LE13XX51Extend33XX17LE1XX4LE1XX2LE10XX1",
  "LE1XX3LE5XX6LE1XX1LE1XX1LE1XX1LE4XX1LE11XX2LE4XX5LE5XX4LE1XX17LE41XX813LE52XX1814LE229XX6LE4",
  "Extend3LE2XX12LE38XX1LE1XX5LE1XX2LE56XX7LE1XX15Extend1LE23XX9LE7XX1LE7XX1LE7XX1LE7XX1LE7XX1",
  "LE7XX1LE7XX1LE7XX1Extend32XX47LE1XX464WSegSpace1XX4LE1XX36Extend6XX1KA5XX5LE2XX92Extend2KA2",
  "XX3KA91XX1KA4XX5LE43XX1LE94XX17LE32XX48KA16XX208KA47XX1KA88XX27816LE1165XX67LE46XX2LE269XX3",
  "LE16NU10LE2XX20LE47Extend4XX1Extend10XX1LE31Extend2LE80Extend2XX22LE198XX2LE2XX1LE1XX1LE8",
  "XX21LE16Extend1LE3Extend1LE4Extend1LE23Extend5XX4Extend1XX19LE52XX12Extend2LE50Extend18XX10",
  "NU10XX6Extend18LE6XX3LE1XX1LE2Extend1NU10LE28Extend8XX2LE23Extend13XX12LE29XX3Extend4LE47",
  "Extend14XX14LE1NU10XX11Extend1XX10NU10XX6LE41Extend14XX9LE3Extend1LE8Extend2XX2NU10XX33",
  "Extend3XX50Extend1XX1Extend3XX2Extend2XX5Extend2XX1Extend1XX30LE11Extend5XX2LE3Extend2XX10",
  "LE6XX2LE6XX2LE6XX9LE7XX1LE7XX1LE58XX6LE115Extend8XX1Extend2XX2NU10XX6LE11172XX12LE23XX4LE49",
  "XX8964LE7XX12LE5XX5HL1Extend1HL10XX1HL13XX1HL5XX1HL1XX1HL2XX1HL2XX1HL10LE98XX33LE363XX18LE64",
  "XX2LE54XX40LE12XX4Extend16MN1XX2ML1MN1XX11Extend16XX3EX2XX24EX3MN1XX1MB1XX1MN1ML1XX26LE5XX1",
  "LE135XX2FO1XX7MB1XX4MN1XX1MB1XX1NU10ML1MN1XX5LE26XX4EX1XX1LE26XX11KA56Extend2LE31XX3LE6XX2",
  "LE6XX2LE6XX2LE3XX28FO3XX4LE12XX1LE26XX1LE19XX1LE2XX1LE15XX2LE14XX34LE123XX69LE53XX136Extend1",
  "XX130LE29XX3LE49XX15Extend1XX31LE32XX13LE30XX5LE38Extend5XX5LE30XX2LE36XX4LE8XX1LE5XX42LE158",
  "XX2NU10XX6LE36XX4LE36XX4LE40XX8LE52XX12LE11XX1LE15XX1LE7XX1LE2XX1LE11XX1LE15XX1LE7XX1LE2XX3",
  "LE52XX12LE311XX9LE22XX10LE8XX24LE6XX1LE42XX1LE9XX69LE6XX2LE1XX1LE44XX1LE2XX3LE1XX2LE23XX10",
  "LE23XX9LE31XX65LE19XX1LE2XX10LE22XX10LE26XX70LE56XX6LE2XX64LE1Extend3XX1Extend2XX5Extend4LE4",
  "XX1LE3XX1LE29XX2Extend3XX4Extend1XX32LE29XX3LE29XX35LE8XX1LE28Extend2XX25LE54XX10LE22XX10",
  "LE19XX13LE18XX110LE73XX55LE51XX13LE51XX13LE36Extend4XX8NU10XX6NU10LE28XX3Extend5XX1LE23XX250",
  "LE42XX1Extend2XX3LE2XX16LE3XX55Extend4LE29XX10LE1XX8LE22Extend11XX31LE18Extend4XX42LE21XX27",
  "LE23XX9Extend3LE53Extend15XX31NU10Extend1LE2Extend2LE1XX9Extend4LE45Extend11XX2NU1XX4Extend1",
  "XX10NU1XX2LE25XX7NU10XX6Extend3LE36Extend14XX1NU10XX4LE1Extend2LE1XX8LE35Extend1XX2LE1XX9",
  "Extend3LE48Extend14LE4XX4Extend4XX1Extend2NU10LE1XX1LE1XX35LE18XX1LE25Extend12XX6Extend1LE2",
  "Extend1XX62LE7XX1LE1XX1LE4XX1LE15XX1LE10XX7LE47Extend12XX5NU10XX6Extend4XX1LE8XX2LE2XX2LE22",
  "XX1LE7XX1LE2XX1LE5XX1Extend2LE1Extend7XX2Extend2XX2Extend3XX2LE1XX6Extend1XX5LE5Extend2XX2",
  "Extend7XX3Extend5XX11LE10XX1LE1XX2LE1XX1LE38XX1LE1Extend9XX1Extend1XX2Extend1XX1Extend4XX1",
  "Extend5LE1Extend1LE1XX13Extend2XX29LE53Extend18LE4XX5NU10XX4Extend1LE3XX30LE48Extend20LE2XX1",
  "LE1XX8NU10XX166LE47Extend7XX2Extend9XX23LE4Extend2XX34LE48Extend17XX3LE1XX11NU10XX38LE43",
  "Extend13LE1XX7NU10XX6NU20XX57Extend15XX4NU10XX198LE44Extend15XX101LE64NU10XX21LE8XX2LE1XX2",
  "LE8XX1LE2XX1LE24Extend6XX1Extend2XX2Extend4LE1Extend1LE1Extend2XX12NU10XX70LE8XX2LE39Extend7",
  "XX2Extend7LE1XX1LE1Extend1XX27LE1Extend10LE40Extend7LE1Extend4XX8Extend1XX8LE1Extend11LE46",
  "Extend16XX3LE1XX18LE73XX199LE33XX15NU10XX6LE9XX1LE37Extend8XX1Extend8LE1XX15NU10XX24LE30XX2",
  "Extend22XX1Extend14XX73LE7XX1LE2XX1LE38Extend6XX3Extend1XX1Extend2XX1Extend7LE1Extend1XX8",
  "NU10XX6LE6XX1LE2XX1LE32Extend5XX1Extend2XX1Extend5LE1XX7NU10XX310LE19Extend4XX9Extend2LE1",
  "Extend1LE13XX1LE34Extend7XX3Extend5XX13NU10Extend1XX85LE1XX79LE922XX102LE111XX17LE196XX2636",
  "LE97XX15LE1072FO16Extend1LE6Extend15XX10LE3995XX5LE583XX6841LE30Extend18NU10XX1734LE569XX7",
  "LE31XX1NU10XX6LE79XX1NU10XX6LE30XX2Extend5XX11LE48Extend7XX9LE4XX12NU10XX9LE21XX5LE19XX432",
  "LE45XX3NU10XX198LE64XX128LE75XX4Extend1LE1Extend55XX7Extend4LE13XX64LE2XX1LE1Extend1XX11",
  "Extend2XX16382KA4XX1KA7XX1KA2XX1KA1XX287KA3XX50KA1XX14KA4XX2712LE107XX5LE13XX3LE9XX7LE10XX3",
  "Extend2XX1FO4XX4172NU10XX518Extend46XX2Extend23XX542Extend5XX3Extend6FO8Extend8XX2Extend7",
  "XX30Extend4XX148Extend3XX443LE85XX1LE71XX1LE2XX2LE1XX2LE2XX2LE4XX1LE12XX1LE1XX1LE7XX1LE65XX1",
  "LE4XX2LE8XX1LE7XX1LE28XX1LE4XX1LE5XX1LE1XX3LE7XX1LE340XX2LE25XX1LE25XX1LE31XX1LE25XX1LE31XX1",
  "LE25XX1LE31XX1LE25XX1LE31XX1LE25XX1LE8XX2NU50XX512Extend55XX4Extend50XX8Extend1XX14Extend1",
  "XX22Extend5XX1Extend15XX1104LE31XX6LE6XX213Extend7XX1Extend17XX2Extend7XX1Extend2XX1Extend5",
  "XX5LE62XX33Extend1XX112LE45XX3Extend7LE7XX2NU10XX4LE1XX321LE30Extend1XX17LE44Extend4NU10",
  "XX470LE28Extend4NU10XX214LE30Extend2LE1NU10XX485LE7XX1LE4XX1LE2XX1LE15XX1LE197XX11Extend7",
  "XX41LE68Extend7LE1XX4NU10XX1190LE4XX1LE27XX1LE2XX1LE1XX2LE1XX1LE10XX1LE4XX1LE1XX1LE1XX6LE1",
  "XX4LE1XX1LE1XX1LE1XX1LE3XX1LE2XX1LE1XX2LE1XX1LE1XX1LE1XX1LE1XX1LE1XX1LE2XX1LE1XX2LE4XX1LE7",
  "XX1LE4XX1LE4XX1LE1XX1LE10XX1LE17XX5LE3XX1LE5XX1LE17XX628LE26XX6LE26XX6LE26XX92RI26XX507",
  "Extend5XX2032NU10XX787463FO1XX30Extend96XX128Extend240XX196112"]

def sentenceRuns : Array (Nat × String) := Runs.ofLines [
  "XX9SP1LF1SP2CR1XX18SP1ST1CL1XX4CL3XX2SC2AT1XX1NU10SC1XX4ST1XX1UP26CL1XX1CL1XX3LO26CL1XX1CL1",
  "XX7SE1XX26SP1XX9LO1CL1XX1FO1XX7LO1XX4LO1CL1XX4UP23XX1UP7LO24XX1LO8UP1LO1UP1LO1UP1LO1UP1LO1",
  "UP1LO1UP1LO1UP1LO1UP1LO1UP1LO1UP1LO1UP1LO1UP1LO1UP1LO1UP1LO1UP1LO1UP1LO1UP1LO1UP1LO1UP1LO1",
  "UP1LO1UP1LO1UP1LO1UP1LO1UP1LO1UP1LO1UP1LO1UP1LO1UP1LO2UP1LO1UP1LO1UP1LO1UP1LO1UP1LO1UP1LO1",
  "UP1LO1UP1LO2UP1LO1UP1LO1UP1LO1UP1LO1UP1LO1UP1LO1UP1LO1UP1LO1UP1LO1UP1LO1UP1LO1UP1LO1UP1LO1",
  "UP1LO1UP1LO1UP1LO1UP1LO1UP1LO1UP1LO1UP1LO1UP1LO1UP1LO1UP1LO1UP2LO1UP1LO1UP1LO3UP2LO1UP1LO1",
  "UP2LO1UP3LO2UP4LO1UP2LO1UP3LO3UP2LO1UP2LO1UP1LO1UP1LO1UP2LO1UP1LO2UP1LO1UP2LO1UP3LO1UP1LO1",
  "UP2LO2LE1UP1LO3LE4UP2LO1UP2LO1UP2LO1UP1LO1UP1LO1UP1LO1UP1LO1UP1LO1UP1LO1UP1LO1UP1LO2UP1LO1",
  "UP1LO1UP1LO1UP1LO1UP1LO1UP1LO1UP1LO1UP1LO1UP1LO2UP2LO1UP1LO1UP3LO1UP1LO1UP1LO1UP1LO1UP1LO1",
  "UP1LO1UP1LO1UP1LO1UP1LO1UP1LO1UP1LO1UP1LO1UP1LO1UP1LO1UP1LO1UP1LO1UP1LO1UP1LO1UP1LO1UP1LO1",
  "UP1LO1UP1LO1UP1LO1UP1LO1UP1LO1UP1LO1UP1LO1UP1LO1UP1LO1UP1LO7UP2LO1UP2LO2UP1LO1UP4LO1UP1LO1",
  "UP1LO1UP1LO1UP1LO69LE1LO36LE7LO2XX4LE12XX14LO5XX7LE1XX1LE1XX17EX112UP1LO1UP1LO1LE1XX1UP1LO1",
  "XX2LO4XX1UP1XX6UP1XX1UP3XX1UP1XX1UP2LO1UP17XX1UP9LO35UP1LO2UP3LO3UP1LO1UP1LO1UP1LO1UP1LO1UP1",
  "LO1UP1LO1UP1LO1UP1LO1UP1LO1UP1LO1UP1LO1UP1LO5UP1LO1XX1UP1LO1UP2LO2UP51LO48UP1LO1UP1LO1UP1LO1",
  "UP1LO1UP1LO1UP1LO1UP1LO1UP1LO1UP1LO1UP1LO1UP1LO1UP1LO1UP1LO1UP1LO1UP1LO1UP1LO1UP1LO1XX1EX7",
  "UP1LO1UP1LO1UP1LO1UP1LO1UP1LO1UP1LO1UP1LO1UP1LO1UP1LO1UP1LO1UP1LO1UP1LO1UP1LO1UP1LO1UP1LO1",
  "UP1LO1UP1LO1UP1LO1UP1LO1UP1LO1UP1LO1UP1LO1UP1LO1UP1LO1UP1LO1UP1LO1UP1LO1UP2LO1UP1LO1UP1LO1",
  "UP1LO1UP1LO1UP1LO1UP1LO2UP1LO1UP1LO1UP1LO1UP1LO1UP1LO1UP1LO1UP1LO1UP1LO1UP1LO1UP1LO1UP1LO1",
  "UP1LO1UP1LO1UP1LO1UP1LO1UP1LO1UP1LO1UP1LO1UP1LO1UP1LO1UP1LO1UP1LO1UP1LO1UP1LO1UP1LO1UP1LO1",
  "UP1LO1UP1LO1UP1LO1UP1LO1UP1LO1UP1LO1UP1LO1UP1LO1UP1LO1UP1LO1UP1LO1UP1LO1UP1LO1UP1LO1UP1LO1",
  "UP1LO1UP1LO1UP1LO1UP1LO1UP1LO1UP1LO1UP1LO1XX1UP38XX2LE1XX3SC1XX2LO41ST1XX7EX45XX1EX1XX1EX2",
  "XX1EX2XX1EX1XX8LE27XX4LE5XX12NU6XX6SC2XX2EX11XX1FO1ST3LE43EX21NU10XX1NU2XX1LE2EX1LE99ST1LE1",
  "EX7NU1XX1EX6LE2EX2XX1EX4LE2NU10LE3XX2LE1ST3XX12LE2EX1LE30EX27XX2LE89EX11LE1XX14NU10LE33EX9",
  "LE2XX2SC1ST1LE1XX2EX1XX2LE22EX4LE1EX9LE1EX3LE1EX5XX9ST1XX1ST1XX3ST2XX1LE25EX3XX4LE11XX5LE24",
  "XX1LE6XX1NU2XX5EX9LE42EX24NU1EX33LE54EX3LE1EX18LE1EX7LE10EX2ST2NU10XX1LE16EX3XX1LE8XX2LE2XX2",
  "LE22XX1LE7XX1LE1XX3LE4XX2EX1LE1EX7XX2EX2XX2EX3LE1XX8EX1XX4LE2XX1LE3EX2XX2NU10LE2XX10LE1XX1",
  "EX1XX2EX3XX1LE6XX4LE2XX2LE22XX1LE7XX1LE2XX1LE2XX1LE2XX2EX1XX1EX5XX4EX2XX2EX3XX3EX1XX7LE4XX1",
  "LE1XX7NU10EX2LE3EX1XX11EX3XX1LE9XX1LE3XX1LE22XX1LE7XX1LE2XX1LE5XX2EX1LE1EX8XX1EX3XX1EX3XX2",
  "LE1XX15LE2EX2XX2NU10XX9LE1EX6XX1EX3XX1LE8XX2LE2XX2LE22XX1LE7XX1LE2XX1LE5XX2EX1LE1EX7XX2EX2",
  "XX2EX3XX7EX3XX4LE2XX1LE3EX2XX2NU10XX1LE1XX16EX1LE1XX1LE6XX3LE3XX1LE4XX3LE2XX1LE1XX1LE2XX3LE2",
  "XX3LE3XX3LE12XX4EX5XX3EX3XX1EX4XX2LE1XX6EX1XX14NU10XX16EX5LE8XX1LE3XX1LE23XX1LE16XX2EX1LE1",
  "EX7XX1EX3XX1EX4XX7EX2XX1LE3XX2LE1XX2LE2EX2XX2NU10XX16LE1EX3XX1LE8XX1LE3XX1LE23XX1LE10XX1LE5",
  "XX2EX1LE1EX7XX1EX3XX1EX4XX7EX2XX6LE2XX1LE2EX2XX2NU10XX1LE2EX1XX12EX4LE9XX1LE3XX1LE41EX2LE1",
  "EX7XX1EX3XX1EX4LE1XX5LE3EX1XX7LE3EX2XX2NU10XX10LE6XX1EX3XX1LE18XX3LE24XX1LE9XX1LE1XX2LE7XX3",
  "EX1XX4EX6XX1EX1XX1EX8XX6NU10XX2EX2XX13LE48EX1LE2EX7XX5LE7EX8XX1NU10XX39LE2XX1LE1XX1LE5XX1",
  "LE24XX1LE1XX1LE10EX1LE2EX9LE1XX2LE5XX1LE1XX1EX7XX1NU10XX2LE4XX32LE1XX23EX2XX6NU10XX11EX1XX1",
  "EX1XX1EX1CL4EX2LE8XX1LE36XX4EX20XX1EX2LE5EX11XX1EX36XX9EX1XX57LE43EX20LE1NU10ST2XX4LE6EX4LE4",
  "EX3LE1EX3LE2EX7LE3EX4LE13EX12LE1EX1NU10EX4XX2UP38XX1UP1XX5UP1XX2LE43XX1LO1LE332XX1LE4XX2LE7",
  "XX1LE1XX1LE4XX2LE41XX1LE4XX2LE33XX1LE4XX2LE7XX1LE1XX1LE4XX2LE15XX1LE57XX1LE4XX2LE67XX2EX3XX2",
  "ST1XX4ST2XX23LE16XX16UP86XX2LO6XX3LE620XX1ST1LE17SP1LE26CL2XX3LE75XX3LE11XX7LE18EX4XX9LE19",
  "EX3ST2XX9LE18EX2XX12LE13XX1LE3XX1EX2XX12LE52EX32ST2XX1LE1XX4LE1EX1XX2NU10XX24SC1ST1XX4SC1ST1",
  "XX1EX3FO1EX1NU10XX6LE89XX7LE5EX2LE34EX1LE1XX5LE70XX10LE31XX1EX12XX4EX12XX8ST2NU10LE30XX2LE5",
  "XX11LE44XX4LE26XX6NU10XX38LE23EX5XX4LE53EX10XX1EX29XX2EX1NU10XX6NU10XX13LE1ST4XX4EX31XX49EX5",
  "LE47EX17LE8XX1ST2NU10ST2XX2ST2XX11EX9XX9ST3EX3LE30EX13LE2NU10LE44EX14XX12LE36EX20XX3ST2XX3",
  "NU10XX3LE3NU10LE36ST2LO9UP1LO1XX5LE43XX2LE3XX16EX3XX1EX21LE4EX1LE6EX1LE2EX3LE1XX5LO192EX64",
  "UP1LO1UP1LO1UP1LO1UP1LO1UP1LO1UP1LO1UP1LO1UP1LO1UP1LO1UP1LO1UP1LO1UP1LO1UP1LO1UP1LO1UP1LO1",
  "UP1LO1UP1LO1UP1LO1UP1LO1UP1LO1UP1LO1UP1LO1UP1LO1UP1LO1UP1LO1UP1LO1UP1LO1UP1LO1UP1LO1UP1LO1",
  "UP1LO1UP1LO1UP1LO1UP1LO1UP1LO1UP1LO1UP1LO1UP1LO1UP1LO1UP1LO1UP1LO1UP1LO1UP1LO1UP1LO1UP1LO1",
  "UP1LO1UP1LO1UP1LO1UP1LO1UP1LO1UP1LO1UP1LO1UP1LO1UP1LO1UP1LO1UP1LO1UP1LO1UP1LO1UP1LO1UP1LO1",
  "UP1LO1UP1LO1UP1LO1UP1LO1UP1LO1UP1LO1UP1LO1UP1LO1UP1LO1UP1LO1UP1LO1UP1LO1UP1LO1UP1LO1UP1LO9",
  "UP1LO1UP1LO1UP1LO1UP1LO1UP1LO1UP1LO1UP1LO1UP1LO1UP1LO1UP1LO1UP1LO1UP1LO1UP1LO1UP1LO1UP1LO1",
  "UP1LO1UP1LO1UP1LO1UP1LO1UP1LO1UP1LO1UP1LO1UP1LO1UP1LO1UP1LO1UP1LO1UP1LO1UP1LO1UP1LO1UP1LO1",
  "UP1LO1UP1LO1UP1LO1UP1LO1UP1LO1UP1LO1UP1LO1UP1LO1UP1LO1UP1LO1UP1LO1UP1LO1UP1LO1UP1LO1UP1LO1",
  "UP1LO1UP1LO1UP1LO1UP1LO9UP8LO6XX2UP6XX2LO8UP8LO8UP8LO6XX2UP6XX2LO8XX1UP1XX1UP1XX1UP1XX1UP1",
  "LO8UP8LO14XX2LO8UP8LO8UP8LO8UP8LO5XX1LO2UP5XX1LO1XX3LO3XX1LO2UP5XX3LO4XX2LO2UP4XX4LO8UP5XX5",
  "LO3XX1LO2UP5XX3SP11FO1EX2FO2XX3SC2XX3CL8XX4AT1XX3SE2FO5SP1XX9CL2XX1ST2XX7CL2ST3XX21SP1FO5XX1",
  "FO10XX1LO1XX11CL2LO1XX13CL2XX1LO13XX51EX33XX17UP1XX4UP1XX2LO1UP3LO2UP3LO1XX1UP1XX3UP5XX6UP1",
  "XX1UP1XX1UP1XX1UP4XX1LO1UP4LO1LE4LO1XX2LO2UP2XX5UP1LO4XX4LO1XX17UP16LO16LE3UP1LO1LE4XX383CL4",
  "XX29CL2XX395UP26LO26XX625CL6XX7CL14XX79CL2XX31CL10XX403CL22XX63CL4XX32CL2XX514UP48LO48UP1LO1",
  "UP3LO2UP1LO1UP1LO1UP1LO1UP4LO1UP1LO2UP1LO8UP3LO1UP1LO1UP1LO1UP1LO1UP1LO1UP1LO1UP1LO1UP1LO1",
  "UP1LO1UP1LO1UP1LO1UP1LO1UP1LO1UP1LO1UP1LO1UP1LO1UP1LO1UP1LO1UP1LO1UP1LO1UP1LO1UP1LO1UP1LO1",
  "UP1LO1UP1LO1UP1LO1UP1LO1UP1LO1UP1LO1UP1LO1UP1LO1UP1LO1UP1LO1UP1LO1UP1LO1UP1LO1UP1LO1UP1LO1",
  "UP1LO1UP1LO1UP1LO1UP1LO1UP1LO1UP1LO1UP1LO1UP1LO1UP1LO1UP1LO1UP1LO1UP1LO2XX6UP1LO1UP1LO1EX3",
  "UP1LO1XX5ST3XX4LO38XX1LO1XX5LO1XX2LE56XX7LE1XX15EX1LE23XX9LE7XX1LE7XX1LE7XX1LE7XX1LE7XX1LE7",
  "XX1LE7XX1LE7XX1EX32CL14XX14CL2XX2CL10XX4ST1LE1XX12ST1XX5CL1XX16ST2CL8XX419SP1SC1ST1XX2LE3",
  "CL10XX2CL8XX1CL3XX1LE9EX6XX1LE5XX2LE5XX4LE86XX2EX2XX2LE3XX1LE90XX1LE4XX5LE43XX1LE94XX17LE32",
  "XX48LE16XX512LE6592XX64LE22157XX67LE46XX1ST1LE269XX1ST2LE16NU10LE2XX20UP1LO1UP1LO1UP1LO1UP1",
  "LO1UP1LO1UP1LO1UP1LO1UP1LO1UP1LO1UP1LO1UP1LO1UP1LO1UP1LO1UP1LO1UP1LO1UP1LO1UP1LO1UP1LO1UP1",
  "LO1UP1LO1UP1LO1UP1LO1UP1LO1LE1EX4XX1EX10XX1LE1UP1LO1UP1LO1UP1LO1UP1LO1UP1LO1UP1LO1UP1LO1UP1",
  "LO1UP1LO1UP1LO1UP1LO1UP1LO1UP1LO1UP1LO3EX2LE80EX2XX1ST1XX3ST1XX31LE9XX2UP1LO1UP1LO1UP1LO1UP1",
  "LO1UP1LO1UP1LO1UP1LO3UP1LO1UP1LO1UP1LO1UP1LO1UP1LO1UP1LO1UP1LO1UP1LO1UP1LO1UP1LO1UP1LO1UP1",
  "LO1UP1LO1UP1LO1UP1LO1UP1LO1UP1LO1UP1LO1UP1LO1UP1LO1UP1LO1UP1LO1UP1LO1UP1LO1UP1LO1UP1LO1UP1",
  "LO1UP1LO1UP1LO1UP1LO1UP1LO10UP1LO1UP1LO1UP2LO1UP1LO1UP1LO1UP1LO1UP1LO1LE1XX2UP1LO1UP1LO1LE1",
  "UP1LO1UP1LO3UP1LO1UP1LO1UP1LO1UP1LO1UP1LO1UP1LO1UP1LO1UP1LO1UP1LO1UP1LO1UP5LO1UP5LO1UP1LO1",
  "UP1LO1UP1LO1UP1LO1UP1LO1UP1LO1UP1LO1UP4LO1UP1LO1UP2LO1XX2UP1LO1XX1LO1XX1LO1UP1LO1UP1LO1UP1",
  "LO1UP1XX21LO3UP1LO1LE1LO3LE7EX1LE3EX1LE4EX1LE23EX5XX4EX1XX19LE52XX2ST2XX8EX2LE50EX18XX8ST2",
  "NU10XX6EX18LE6XX3LE1XX1LE2EX1NU10LE28EX8XX1ST1LE23EX13XX12LE29XX3EX4LE47EX14XX7ST2XX5LE1NU10",
  "XX6LE5EX1LE10NU10LE5XX1LE41EX14XX9LE3EX1LE8EX2XX2NU10XX3ST3LE23XX3LE1EX3LE50EX1LE1EX3LE2EX2",
  "LE5EX2LE1EX1LE1XX24LE3XX2LE11EX5ST2LE3EX2XX10LE6XX2LE6XX2LE6XX9LE7XX1LE7XX1LO43XX1LO14XX6",
  "LO80LE35EX8ST1EX2XX2NU10XX6LE11172XX12LE23XX4LE49XX8452LE366XX2LE106XX38LO7XX12LO5XX5LE1EX1",
  "LE10XX1LE13XX1LE5XX1LE1XX1LE2XX1LE2XX1LE108XX33LE363CL2XX16LE64XX2LE54XX40LE12XX4EX16SC2ST1",
  "SC1XX1ST2CL2XX7EX16XX1SC2XX2CL16XX2CL2XX7SC2AT1XX2SC1ST2SC1CL6XX4SC1XX12LE5XX1LE135XX2FO1XX1",
  "ST1XX6CL2XX2SC2AT1XX1NU10SC1XX4ST1XX1UP26CL1XX1CL1XX3LO26CL1XX1CL1XX1CL2ST1CL2SC1XX1LE56EX2",
  "LE31XX3LE6XX2LE6XX2LE6XX2LE3XX28FO3XX4LE12XX1LE26XX1LE19XX1LE2XX1LE15XX2LE14XX34LE123XX69",
  "LE53XX136EX1XX130LE29XX3LE49XX15EX1XX31LE32XX13LE30XX5LE38EX5XX5LE30XX2LE36XX4LE8XX1LE5XX42",
  "UP40LO40LE78XX2NU10XX6UP36XX4LO36XX4LE40XX8LE52XX12UP11XX1UP15XX1UP7XX1UP2XX1LO11XX1LO15XX1",
  "LO7XX1LO2XX3LE52XX12LE311XX9LE22XX10LE8XX24LO1LE2LO3XX1LO42XX1LO9XX69LE6XX2LE1XX1LE44XX1LE2",
  "XX3LE1XX2LE23XX10LE23XX9LE31XX65LE19XX1LE2XX10LE22XX10LE26XX70LE56XX6LE2XX64LE1EX3XX1EX2XX5",
  "EX4LE4XX1LE3XX1LE29XX2EX3XX4EX1XX22ST2XX8LE29XX3LE29XX35LE8XX1LE28EX2XX25LE54XX10LE22XX10",
  "LE19XX13LE18XX110LE73XX55UP51XX13LO51XX13LE36EX4XX8NU10XX6NU10LE6UP22XX3EX5XX1LE1LO22XX250",
  "LE42XX1EX2XX3LE2XX16LE3XX55EX4LE29XX10LE1XX8LE22EX11XX4ST5XX22LE18EX4ST4XX38LE21XX27LE23XX9",
  "EX3LE53EX15ST2XX29NU10EX1LE2EX2LE1XX9EX4LE45EX11XX2NU1ST4EX1XX10NU1XX2LE25XX7NU10XX6EX3LE36",
  "EX14XX1NU10XX1ST3LE1EX2LE1XX8LE35EX1XX2LE1XX9EX3LE48EX14LE4ST2XX2EX4ST1EX2NU10LE1XX1LE1XX1",
  "ST2XX32LE18XX1LE25EX12ST2XX1ST2XX1EX1LE2EX1XX62LE7XX1LE1XX1LE4XX1LE15XX1LE10ST1XX6LE47EX12",
  "XX5NU10XX6EX4XX1LE8XX2LE2XX2LE22XX1LE7XX1LE2XX1LE5XX1EX2LE1EX7XX2EX2XX2EX3XX2LE1XX6EX1XX5LE5",
  "EX2XX2EX7XX3EX5XX11LE10XX1LE1XX2LE1XX1LE38XX1LE1EX9XX1EX1XX2EX1XX1EX4XX1EX5LE1EX1LE1ST2XX11",
  "EX2XX29LE53EX18LE4ST2XX3NU10XX4EX1LE3XX30LE48EX20LE2XX1LE1XX8NU10XX166LE47EX7XX2EX9XX1ST2XX5",
  "ST15LE4EX2XX34LE48EX17ST2XX1LE1XX11NU10XX38LE43EX13LE1XX7NU10XX6NU20XX28LE27XX2EX15XX4NU10",
  "XX2ST3XX1LE7XX185LE44EX15XX101UP32LO32NU10XX21LE8XX2LE1XX2LE8XX1LE2XX1LE24EX6XX1EX2XX2EX4LE1",
  "EX1LE1EX2ST1XX1ST1XX9NU10XX70LE8XX2LE39EX7XX2EX7LE1XX1LE1EX1XX27LE1EX10LE40EX7LE1EX4XX3ST2",
  "XX3EX1XX8LE1EX11LE46EX16XX1ST2LE1XX18LE73XX199LE33XX15NU10XX6LE9XX1LE37EX8XX1EX8LE1ST2XX13",
  "NU10XX24LE30XX2EX22XX1EX14XX73LE7XX1LE2XX1LE38EX6XX3EX1XX1EX2XX1EX7LE1EX1XX8NU10XX6LE6XX1LE2",
  "XX1LE32EX5XX1EX2XX1EX5LE1XX7NU10XX310LE19EX4ST2XX7EX2LE1EX1LE13XX1LE34EX7XX3EX5ST2XX11NU10",
  "EX1XX85LE1XX79LE922XX102LE111XX17LE196XX2636LE97XX15LE1072FO16EX1LE6EX15XX10LE3995XX5LE583",
  "XX6841LE30EX18NU10XX1734LE569XX7LE31XX1NU10XX4ST2LE79XX1NU10XX6LE30XX2EX5ST1XX10LE48EX7ST2",
  "XX7LE4ST1XX11NU10XX9LE21XX5LE19XX432LE45XX1ST2NU10XX198UP32LO32XX24ST1XX103LE75XX4EX1LE1EX55",
  "XX7EX4LE13XX64LE2XX1LE1EX1XX11EX2XX14LE6136XX8LE1238XX41LE10XX8935LE4XX1LE7XX1LE2XX1LE291",
  "XX15LE1XX29LE3XX2LE1XX14LE4XX8LE396XX2308LE107XX5LE13XX3LE9XX7LE10XX3EX2ST1FO4XX4172NU10",
  "XX518EX46XX2EX23XX542EX5XX3EX6FO8EX8XX2EX7XX30EX4XX148EX3XX443UP26LO26UP26LO7XX1LO18UP26LO26",
  "UP1XX1UP2XX2UP1XX2UP2XX2UP4XX1UP8LO4XX1LO1XX1LO7XX1LO11UP26LO26UP2XX1UP4XX2UP8XX1UP7XX1LO26",
  "UP2XX1UP4XX1UP5XX1UP1XX3UP7XX1LO26UP26LO26UP26LO26UP26LO26UP26LO26UP26LO26UP26LO28XX2UP25XX1",
  "LO25XX1LO6UP25XX1LO25XX1LO6UP25XX1LO25XX1LO6UP25XX1LO25XX1LO6UP25XX1LO25XX1LO6UP1LO1XX2NU50",
  "XX512EX55XX4EX50XX8EX1XX14EX1XX3ST1XX18EX5XX1EX15XX1104LO10LE1LO20XX6LO6XX213EX7XX1EX17XX2",
  "EX7XX1EX2XX1EX5XX5LO62XX33EX1XX112LE45XX3EX7LE7XX2NU10XX4LE1XX321LE30EX1XX17LE44EX4NU10XX470",
  "LE28EX4NU10XX214LE30EX2LE1NU10XX485LE7XX1LE4XX1LE2XX1LE15XX1LE197XX11EX7XX41UP34LO34EX7LE1",
  "XX4NU10XX1190LE4XX1LE27XX1LE2XX1LE1XX2LE1XX1LE10XX1LE4XX1LE1XX1LE1XX6LE1XX4LE1XX1LE1XX1LE1",
  "XX1LE3XX1LE2XX1LE1XX2LE1XX1LE1XX1LE1XX1LE1XX1LE1XX1LE2XX1LE1XX2LE4XX1LE7XX1LE4XX1LE4XX1LE1",
  "XX1LE10XX1LE17XX5LE3XX1LE5XX1LE17XX628UP26XX6UP26XX6UP26XX1260CL3XX1399NU10XX1030LE42720XX32",
  "LE4154XX6LE222XX2LE5762XX14LE7473XX15LE622XX2466LE542XX1506LE4939XX5LE4192XX711761FO1XX30",
  "EX96XX128EX240XX196112"]

def names : Break → List (String × List String)
  | cluster => clusterNames
  | word => wordNames
  | sentence => sentenceNames

/-- The first code point of every run with the value of the run, in order. -/
def runs : Break → Array (Nat × String)
  | cluster => clusterRuns
  | word => wordRuns
  | sentence => sentenceRuns

def of (b : Break) (c : Char) : String := (Runs.find? b.runs c.toNat).getD "XX"

def named? (b : Break) (name : String) : Option String :=
  (b.names.find? fun entry => entry.2.contains name).map (·.1)

end Break

end Text

end Rehearsal
