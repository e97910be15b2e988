import Rehearsal.Result.Status

/-!
# Locales

The words of the reports in the languages that there are. A locale is asked for by its
name; a name that is not known is cut at its last hyphen until it is, and English is the
last resort.
-/

namespace Rehearsal

inductive Locale where
  | english
  | chinese
  deriving DecidableEq, Repr, Inhabited

namespace Locale

def all : List Locale := [english, chinese]

def name : Locale → String
  | english => "en"
  | chinese => "zh-CN"

def named? (name : List Char) : Option Locale := all.find? fun l => l.name.toList == name

/-- The locale for the longest start of a name, given backwards, that ends at a hyphen. -/
def ofReversed : List Char → Option Locale
  | [] => none
  | '-' :: rest =>
    match named? rest.reverse with
    | some l => some l
    | none => ofReversed rest
  | _ :: rest => ofReversed rest

/-- The locale for the words of a report. -/
def ofName (name : String) : Locale :=
  match named? name.toList with
  | some l => l
  | none => (ofReversed name.toList.reverse).getD english

/-- The locale to start with: the one with the name or with the part of it before the first
hyphen. -/
def choose (name : String) : Locale :=
  match named? name.toList with
  | some l => l
  | none => (named? (name.toList.takeWhile (· != '-'))).getD english

def status : Locale → Status → String
  | english, s => s.name
  | chinese, .untested => "未测试"
  | chinese, .skipped => "已跳过"
  | chinese, .passed => "通过"
  | chinese, .undefined => "未定义"
  | chinese, .error => "错误"
  | chinese, .failed => "失败"

def features : Locale → String
  | english => "features"
  | chinese => "功能"

def rules : Locale → String
  | english => "rules"
  | chinese => "规则"

def scenarios : Locale → String
  | english => "scenarios"
  | chinese => "场景"

def steps : Locale → String
  | english => "steps"
  | chinese => "步骤"

/-- How many nodes of a level have passed, have failed and were skipped. -/
def counts (level : String) (passed failed skipped : Nat) : Locale → String
  | english =>
    toString passed ++ " " ++ level ++ " passed, " ++ toString failed ++ " failed, " ++
      toString skipped ++ " skipped"
  | chinese =>
    level ++ "：" ++ toString passed ++ " 个通过，" ++ toString failed ++ " 个失败，" ++
      toString skipped ++ " 个跳过"

def duration (span : String) : Locale → String
  | english => "Took " ++ span
  | chinese => "耗时 " ++ span

def failingBanner : Locale → String
  | english => "--- Failing scenarios ---"
  | chinese => "--- 失败的场景 ---"

def detailsBanner : Locale → String
  | english => "--- Failure details ---"
  | chinese => "--- 失败详情 ---"

def snippetsBanner : Locale → String
  | english => "You can implement step definitions for undefined steps with these snippets:"
  | chinese => "可以使用以下代码片段为未定义的步骤实现步骤定义："

def attempts (count : Nat) : Locale → String
  | english => "failed after " ++ toString count ++ " attempts"
  | chinese => "尝试 " ++ toString count ++ " 次后仍失败"

def stopped : Locale → String
  | english => "Run was stopped before all scenarios finished."
  | chinese => "运行在所有场景完成之前被停止。"

def suiteHookError : Locale → String
  | english => "Suite hook error:"
  | chinese => "套件钩子错误："

end Locale

end Rehearsal
