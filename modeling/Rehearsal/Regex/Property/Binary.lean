import Rehearsal.Regex.CharClass

/-!
# Properties that hold or do not hold

The properties of the Unicode character database with two values, under their names. Most
follow from the general category, from listed properties and from a few further code
points; those about case follow from simple case folding but for the characters listed.
-/

namespace Rehearsal

namespace CharClass

open Text (Intervals Property)

open Text.Category

def asciiHexDigit : Intervals := [
  (0x30, 0x39), (0x41, 0x46), (0x61, 0x66)]

def hexDigit : Intervals := [
  (0x30, 0x39), (0x41, 0x46), (0x61, 0x66), (0xFF10, 0xFF19), (0xFF21, 0xFF26), (0xFF41, 0xFF46)]

def bidiControl : Intervals := [
  (0x61C, 0x61C), (0x200E, 0x200F), (0x202A, 0x202E), (0x2066, 0x2069)]

def joinControl : Intervals := [
  (0x200C, 0x200D)]

def deprecated : Intervals := [
  (0x149, 0x149), (0x673, 0x673), (0xF77, 0xF77), (0xF79, 0xF79), (0x17A3, 0x17A4),
  (0x206A, 0x206F), (0x2329, 0x232A), (0xE0001, 0xE0001)]

def emojiComponent : Intervals := [
  (0x23, 0x23), (0x2A, 0x2A), (0x30, 0x39), (0x200D, 0x200D), (0x20E3, 0x20E3), (0xFE0F, 0xFE0F),
  (0x1F1E6, 0x1F1FF), (0x1F3FB, 0x1F3FF), (0x1F9B0, 0x1F9B3), (0xE0020, 0xE007F)]

def emojiModifier : Intervals := [
  (0x1F3FB, 0x1F3FF)]

def hyphen : Intervals := [
  (0x2D, 0x2D), (0xAD, 0xAD), (0x58A, 0x58A), (0x1806, 0x1806), (0x2010, 0x2011),
  (0x2E17, 0x2E17), (0x30FB, 0x30FB), (0xFE63, 0xFE63), (0xFF0D, 0xFF0D), (0xFF65, 0xFF65)]

def quotationMark : Intervals := [
  (0x22, 0x22), (0x27, 0x27), (0xAB, 0xAB), (0xBB, 0xBB), (0x2018, 0x201F), (0x2039, 0x203A),
  (0x2E42, 0x2E42), (0x300C, 0x300F), (0x301D, 0x301F), (0xFE41, 0xFE44), (0xFF02, 0xFF02),
  (0xFF07, 0xFF07), (0xFF62, 0xFF63)]

def descriptionUnary : Intervals := [
  (0x2FFE, 0x2FFF)]

def descriptionBinary : Intervals := [
  (0x2FF0, 0x2FF1), (0x2FF4, 0x2FFD), (0x31EF, 0x31EF)]

def descriptionTrinary : Intervals := [
  (0x2FF2, 0x2FF3)]

def radical : Intervals := [
  (0x2E80, 0x2E99), (0x2E9B, 0x2EF3), (0x2F00, 0x2FD5)]

/-- Signs of mathematics that may start a name. -/
def mathStart : Intervals := [
  (0x2202, 0x2202), (0x2207, 0x2207), (0x221E, 0x221E), (0x1D6C1, 0x1D6C1), (0x1D6DB, 0x1D6DB),
  (0x1D6FB, 0x1D6FB), (0x1D715, 0x1D715), (0x1D735, 0x1D735), (0x1D74F, 0x1D74F),
  (0x1D76F, 0x1D76F), (0x1D789, 0x1D789), (0x1D7A9, 0x1D7A9), (0x1D7C3, 0x1D7C3)]

/-- Signs of mathematics that may only continue a name. -/
def mathContinue : Intervals := [
  (0xB2, 0xB3), (0xB9, 0xB9), (0x2070, 0x2070), (0x2074, 0x207E), (0x2080, 0x208E)]

/-- Vowels written before their consonant. -/
def logicalOrderException : Intervals := [
  (0xE40, 0xE44), (0xEC0, 0xEC4), (0x19B5, 0x19B7), (0x19BA, 0x19BA), (0xAAB5, 0xAAB6),
  (0xAAB9, 0xAAB9), (0xAABB, 0xAABC)]

/-- Marks that are moved in front of others. -/
def combiningModifier : Intervals := [
  (0x654, 0x655), (0x658, 0x658), (0x6DC, 0x6DC), (0x6E3, 0x6E3), (0x6E7, 0x6E8), (0x8CA, 0x8CB),
  (0x8CD, 0x8CF), (0x8D3, 0x8D3), (0x8F3, 0x8F3)]

/-- Ignored where they cannot be shown although the category is another. -/
def otherIgnorable : Intervals := [
  (0x34F, 0x34F), (0x115F, 0x1160), (0x17B4, 0x17B5), (0x2065, 0x2065), (0x3164, 0x3164),
  (0xFFA0, 0xFFA0), (0xFFF0, 0xFFF8), (0xE0000, 0xE0000), (0xE0002, 0xE001F), (0xE0080, 0xE00FF),
  (0xE01F0, 0xE0FFF)]

def otherNameStart : Intervals := [
  (0x1885, 0x1886), (0x2118, 0x2118), (0x212E, 0x212E), (0x309B, 0x309C)]

def otherNameContinue : Intervals := [
  (0xB7, 0xB7), (0x387, 0x387), (0x1369, 0x1371), (0x19DA, 0x19DA), (0x200C, 0x200D),
  (0x30FB, 0x30FB), (0xFF65, 0xFF65)]

def otherUppercase : Intervals := [
  (0x2160, 0x216F), (0x24B6, 0x24CF), (0x1F130, 0x1F149), (0x1F150, 0x1F169), (0x1F170, 0x1F189)]

def patternBlank : Intervals := [
  (0x9, 0xD), (0x20, 0x20), (0x85, 0x85), (0x200E, 0x200F), (0x2028, 0x2029)]

def prependedMark : Intervals := [
  (0x600, 0x605), (0x6DD, 0x6DD), (0x70F, 0x70F), (0x890, 0x891), (0x8E2, 0x8E2),
  (0x110BD, 0x110BD), (0x110CD, 0x110CD)]

def regionalIndicator : Intervals := [
  (0x1F1E6, 0x1F1FF)]

def variationSelector : Intervals := [
  (0x180B, 0x180D), (0x180F, 0x180F), (0xFE00, 0xFE0F), (0xE0100, 0xE01EF)]

def letters : CharClass := category [lu, ll, lt, lm, lo, nl]

def uppercase : CharClass := union (category [lu]) (listed otherUppercase)

def lowercase : CharClass := union (category [ll]) (property .otherLowercase)

def cased : CharClass := union lowercase (union uppercase (category [lt]))

/-- Characters that case mappings look past, beside those of certain categories. -/
def otherCaseIgnorable : Intervals := [
  (0x27, 0x27), (0x2E, 0x2E), (0x3A, 0x3A), (0xB7, 0xB7), (0x387, 0x387), (0x55F, 0x55F),
  (0x5F4, 0x5F4), (0x2018, 0x2019), (0x2024, 0x2024), (0x2027, 0x2027), (0xFE13, 0xFE13),
  (0xFE52, 0xFE52), (0xFE55, 0xFE55), (0xFF07, 0xFF07), (0xFF0E, 0xFF0E), (0xFF1A, 0xFF1A)]

def caseIgnorable : CharClass :=
  union (category [mn, me, cf, lm, sk]) (listed otherCaseIgnorable)

def graphemeExtend : CharClass := union (category [mn, me]) (property .otherExtender)

def graphemeBase : CharClass :=
  diff (complement (category [cc, cf, cs, co, cn, zl, zp])) graphemeExtend

/-- Without what is reserved for the syntax of patterns. -/
def withoutSyntax (c : CharClass) : CharClass :=
  diff (diff c (property .patternSyntax)) (listed patternBlank)

def nameStart : CharClass := withoutSyntax (union letters (listed otherNameStart))

def nameContinue : CharClass :=
  withoutSyntax (union nameStart (union (category [mn, mc, nd, pc]) (listed otherNameContinue)))

/-- Characters that may be part of a name only until the name is normalized. -/
def unstableInNames : Intervals := [
  (0x37A, 0x37A), (0x309B, 0x309C), (0xFC5E, 0xFC63), (0xFDFA, 0xFDFB), (0xFE70, 0xFE70),
  (0xFE72, 0xFE72), (0xFE74, 0xFE74), (0xFE76, 0xFE76), (0xFE78, 0xFE78), (0xFE7A, 0xFE7A),
  (0xFE7C, 0xFE7C), (0xFE7E, 0xFE7E)]

/-- Characters that may start a name only until the name is normalized, beside those. -/
def unstableAtStart : Intervals := [(0xE33, 0xE33), (0xEB3, 0xEB3), (0xFF9E, 0xFF9F)]

/-- Controls that are shown although their category is that of ignored ones. -/
def shownControls : Intervals := [(0xFFF9, 0xFFFB), (0x13430, 0x1345F)]

def ignorable : CharClass :=
  diff (union (listed otherIgnorable) (union (category [cf]) (listed variationSelector)))
    (union (space false) (union (listed shownControls) (listed prependedMark)))

/-- Fold to another character, but are no capital letters. -/
def foldedSmall : Intervals := [
  (0xB5, 0xB5), (0x17F, 0x17F), (0x345, 0x345), (0x3C2, 0x3C2), (0x3D0, 0x3D1), (0x3D5, 0x3D6),
  (0x3F0, 0x3F1), (0x3F5, 0x3F5), (0x13F8, 0x13FD), (0x1C80, 0x1C88), (0x1E9B, 0x1E9B),
  (0x1FBE, 0x1FBE), (0x1FD3, 0x1FD3), (0x1FE3, 0x1FE3), (0xAB70, 0xABBF), (0xFB05, 0xFB05)]

/-- Capital letters that fold to no other single character. -/
def unfoldedCapitals : Intervals := [
  (0x130, 0x130), (0x13A0, 0x13F5)]

/-- Fold to themselves when several characters may stand for one. -/
def foldedAlike : Intervals := [
  (0x1FBE, 0x1FBE), (0x1FD3, 0x1FD3), (0x1FE3, 0x1FE3)]

/-- Fold to several characters. -/
def foldedToMany : Intervals := [
  (0xDF, 0xDF), (0x130, 0x130), (0x149, 0x149), (0x587, 0x587), (0x1E9A, 0x1E9A),
  (0x1F80, 0x1F87), (0x1F90, 0x1F97), (0x1FA0, 0x1FA7), (0x1FB2, 0x1FB4), (0x1FB7, 0x1FB7),
  (0x1FC2, 0x1FC4), (0x1FC7, 0x1FC7), (0x1FF2, 0x1FF4), (0x1FF7, 0x1FF7), (0xFB00, 0xFB04),
  (0xFB06, 0xFB06), (0xFB13, 0xFB17)]

/-- Letters with a capital of their own, although no single character folds to them. -/
def unfoldedSmall : Intervals := [
  (0xB5, 0xB5), (0x131, 0x131), (0x149, 0x149), (0x17F, 0x17F), (0x1C5, 0x1C5), (0x1C8, 0x1C8),
  (0x1CB, 0x1CB), (0x1F0, 0x1F0), (0x1F2, 0x1F2), (0x345, 0x345), (0x3C2, 0x3C2), (0x3D0, 0x3D1),
  (0x3D5, 0x3D6), (0x3F0, 0x3F1), (0x3F5, 0x3F5), (0x587, 0x587), (0x13F8, 0x13FD),
  (0x1C80, 0x1C88), (0x1E96, 0x1E9B), (0x1F50, 0x1F50), (0x1F52, 0x1F52), (0x1F54, 0x1F54),
  (0x1F56, 0x1F56), (0x1F88, 0x1F8F), (0x1F98, 0x1F9F), (0x1FA8, 0x1FAF), (0x1FB2, 0x1FB2),
  (0x1FB4, 0x1FB4), (0x1FB6, 0x1FB7), (0x1FBC, 0x1FBC), (0x1FBE, 0x1FBE), (0x1FC2, 0x1FC2),
  (0x1FC4, 0x1FC4), (0x1FC6, 0x1FC7), (0x1FCC, 0x1FCC), (0x1FD2, 0x1FD3), (0x1FD6, 0x1FD7),
  (0x1FE2, 0x1FE4), (0x1FE6, 0x1FE7), (0x1FF2, 0x1FF2), (0x1FF4, 0x1FF4), (0x1FF6, 0x1FF7),
  (0x1FFC, 0x1FFC), (0xAB70, 0xABBF), (0xFB00, 0xFB05), (0xFB13, 0xFB17)]

/-- Letters with a capital that are title case, or have no title case of their own. -/
def titled : Intervals := [
  (0x1C5, 0x1C5), (0x1C8, 0x1C8), (0x1CB, 0x1CB), (0x1F2, 0x1F2), (0x10D0, 0x10FA),
  (0x10FD, 0x10FF), (0x1F88, 0x1F8F), (0x1F98, 0x1F9F), (0x1FA8, 0x1FAF), (0x1FBC, 0x1FBC),
  (0x1FCC, 0x1FCC), (0x1FFC, 0x1FFC)]

/-- Capitals of two letters, of which title case keeps the first. -/
def doubled : Intervals := [
  (0x1C4, 0x1C4), (0x1C7, 0x1C7), (0x1CA, 0x1CA), (0x1F1, 0x1F1)]

def foldSources : Intervals := .ofUnordered (Text.foldPairs.map fun (source, _) => (source, source))

def foldTargets : Intervals := .ofUnordered (Text.foldPairs.map fun (_, target) => (target, target))

def changesWhenLowercased : CharClass :=
  union (diff (listed foldSources) (listed foldedSmall)) (listed unfoldedCapitals)

def changesWhenUppercased : CharClass :=
  union (diff (listed foldTargets) (listed [(0x13A0, 0x13F5)])) (listed unfoldedSmall)

def changesWhenTitlecased : CharClass :=
  union (diff changesWhenUppercased (listed titled)) (listed doubled)

def changesWhenFolded : CharClass :=
  union (diff (listed foldSources) (listed foldedAlike)) (listed foldedToMany)

/-- The properties with two values, each with its names. -/
def binaryProperties : List (List String × CharClass) := [
  (["ahex", "asciihexdigit"], listed asciiHexDigit),
  (["alpha", "alphabetic"], alphabetic),
  (["bidic", "bidicontrol"], listed bidiControl),
  (["bidim", "bidimirrored"], property .bidiMirrored),
  (["cased"], cased),
  (["ci", "caseignorable"], caseIgnorable),
  (["cwcf", "changeswhencasefolded"], changesWhenFolded),
  (["cwcm", "changeswhencasemapped"],
    union changesWhenLowercased (union changesWhenTitlecased changesWhenUppercased)),
  (["cwl", "changeswhenlowercased"], changesWhenLowercased),
  (["cwt", "changeswhentitlecased"], changesWhenTitlecased),
  (["cwu", "changeswhenuppercased"], changesWhenUppercased),
  (["dash"], property .dash),
  (["dep", "deprecated"], listed deprecated),
  (["di", "defaultignorablecodepoint"], ignorable),
  (["dia", "diacritic"], property .diacritic),
  (["ebase", "emojimodifierbase"], property .emojiModifierBase),
  (["ecomp", "emojicomponent"], listed emojiComponent),
  (["emod", "emojimodifier"], listed emojiModifier),
  (["emoji"], property .emoji),
  (["epres", "emojipresentation"], property .emojiPresentation),
  (["ext", "extender"], property .extender),
  (["extpict", "extendedpictographic"], property .extendedPictographic),
  (["grbase", "graphemebase"], graphemeBase),
  (["grext", "graphemeextend"], graphemeExtend),
  (["grlink", "graphemelink"], property .graphemeLink),
  (["hex", "hexdigit"], listed hexDigit),
  (["hyphen"], listed hyphen),
  (["idc", "idcontinue"], nameContinue),
  (["idcompatmathcontinue"], union (listed mathStart) (listed mathContinue)),
  (["idcompatmathstart"], listed mathStart),
  (["ideo", "ideographic"], property .ideographic),
  (["ids", "idstart"], nameStart),
  (["idsb", "idsbinaryoperator"], listed descriptionBinary),
  (["idst", "idstrinaryoperator"], listed descriptionTrinary),
  (["idsu", "idsunaryoperator"], listed descriptionUnary),
  (["joinc", "joincontrol"], listed joinControl),
  (["loe", "logicalorderexception"], listed logicalOrderException),
  (["lower", "lowercase"], lowercase),
  (["math"], union (category [sm]) (property .otherMath)),
  (["mcm", "modifiercombiningmark"], listed combiningModifier),
  (["nchar", "noncharactercodepoint"], property .noncharacter),
  (["oalpha", "otheralphabetic"], property .otherAlphabetic),
  (["odi", "otherdefaultignorablecodepoint"], listed otherIgnorable),
  (["ogrext", "othergraphemeextend"], property .otherExtender),
  (["oidc", "otheridcontinue"], listed otherNameContinue),
  (["oids", "otheridstart"], listed otherNameStart),
  (["olower", "otherlowercase"], property .otherLowercase),
  (["omath", "othermath"], property .otherMath),
  (["oupper", "otheruppercase"], listed otherUppercase),
  (["patsyn", "patternsyntax"], property .patternSyntax),
  (["patws", "patternwhitespace"], listed patternBlank),
  (["pcm", "prependedconcatenationmark"], listed prependedMark),
  (["qmark", "quotationmark"], listed quotationMark),
  (["radical"], listed radical),
  (["ri", "regionalindicator"], listed regionalIndicator),
  (["sd", "softdotted"], property .softDotted),
  (["sterm", "sentenceterminal"], property .sentenceTerminal),
  (["term", "terminalpunctuation"], property .terminalPunctuation),
  (["uideo", "unifiedideograph"], property .unifiedIdeograph),
  (["upper", "uppercase"], uppercase),
  (["vs", "variationselector"], listed variationSelector),
  (["wspace", "whitespace", "space"], space false),
  (["xidc", "xidcontinue"], diff nameContinue (listed unstableInNames)),
  (["xids", "xidstart"], diff nameStart (union (listed unstableInNames) (listed unstableAtStart)))]

def binaryProperty? (name : String) : Option CharClass :=
  (binaryProperties.find? fun entry => entry.1.contains name).map (·.2)

end CharClass

end Rehearsal
