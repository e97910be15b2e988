import Mathlib.Data.String.Basic
import Rehearsal.Log

/-!
# Scopes collect their own lines

What happens on a thread is described without a buffer: an activity may break off with a panic
(`Activity.panics`), it raises events directly in the scope around it (`Activity.raised`), and the
scopes in it have their outcomes (`Activity.outcomes`). A thread that has one buffer and changes it
at the bounds of scopes comes to just that (`Log.scopes_nest`): the lines of an event go to the
innermost scope that is open, and no other scope sees them.
-/

namespace Rehearsal

/-- A level in capitals, filled up to five characters. -/
def LogLevel.capitals (l : LogLevel) : String :=
  String.ofList ((l.name.toList.map Char.toUpper).rightpad 5 ' ')

theorem LogLevel.label_eq (l : LogLevel) : l.label = l.capitals := by
  cases l <;> decide

namespace LogEvent

/-- What a line says of a field. The message stands without a name. -/
def caption (f : String × String) : String :=
  if f.1 = "message" then f.2 else f.1 ++ "=" ++ f.2

/-- The text of a line: the level, the target, and what is to be said of the fields, with a space
between any two of them. -/
def text (e : LogEvent) : String :=
  " ".intercalate (e.level.capitals :: (e.target ++ ":") :: e.fields.map caption) ++ "\n"

/-- The lines of the events that are not the runner's own. -/
def lines (own : String) (es : List LogEvent) : String :=
  String.join ((es.filter fun e => ¬own.toList <+: e.target.toList).map text)

theorem field_eq (f : String × String) : field f = " " ++ caption f := by
  rw [field, caption]
  split <;> simp [String.append_assoc]

theorem intercalate_cons_captions (first : String) (fs : List (String × String)) :
    " ".intercalate (first :: fs.map caption) = first ++ String.join (fs.map field) := by
  induction fs generalizing first with
  | nil => simp
  | cons f fs ih =>
    rw [List.map_cons, String.intercalate_cons_cons, ih, List.map_cons, String.join_cons, field_eq]
    simp [String.append_assoc]

theorem line_eq_text (e : LogEvent) : e.line = e.text := by
  rw [line, text, String.intercalate_cons_cons, intercalate_cons_captions, e.level.label_eq]
  simp [String.append_assoc]

@[simp] theorem lines_nil (own : String) : lines own [] = "" := rfl

theorem lines_cons (own : String) (e : LogEvent) (es : List LogEvent) :
    lines own (e :: es) = e.collected own ++ lines own es := by
  by_cases hown : own.toList <+: e.target.toList
  · simp [lines, collected, isOwn, hown]
  · simp [lines, collected, isOwn, hown, line_eq_text]

theorem lines_append (own : String) (es es' : List LogEvent) :
    lines own (es ++ es') = lines own es ++ lines own es' := by
  simp [lines]

end LogEvent

namespace Log

mutual

/-- Does a panic leave the activity? -/
def Activity.panics : Activity → Bool
  | .event _ => false
  | .panic => true
  | .scope body => anyPanics body
  | .caught _ => false

/-- Does a panic leave one of the activities? -/
def anyPanics : List Activity → Bool
  | [] => false
  | a :: rest => a.panics || anyPanics rest

end

mutual

/-- The events that an activity raises directly in the scope around it. -/
def Activity.raised : Activity → List LogEvent
  | .event e => [e]
  | .panic => []
  | .scope _ => []
  | .caught body => allRaised body

/-- The events that activities raise directly in the scope around them, up to a panic. -/
def allRaised : List Activity → List LogEvent
  | [] => []
  | a :: rest => a.raised ++ if a.panics then [] else allRaised rest

end

mutual

/-- The outcomes of the scopes of an activity: a scope hands over the lines of the events that are
raised directly in it, unless a panic leaves it. -/
def Activity.outcomes (own : String) : Activity → List Collected
  | .event _ => []
  | .panic => []
  | .scope body =>
    if anyPanics body then [.broken (allOutcomes own body)]
    else [.scope (LogEvent.lines own (allRaised body)) (allOutcomes own body)]
  | .caught body => allOutcomes own body

/-- The outcomes of the scopes of activities, up to a panic. -/
def allOutcomes (own : String) : List Activity → List Collected
  | [] => []
  | a :: rest => a.outcomes own ++ if a.panics then [] else allOutcomes own rest

end

/-- A buffer with lines added to it. A thread without a buffer has nowhere to put them. -/
def Buffer.extend (b : Buffer) (lines : String) : Buffer := b.map (· ++ lines)

@[simp] theorem Buffer.extend_empty (b : Buffer) : b.extend "" = b := by
  cases b <;> simp [Buffer.extend]

theorem Buffer.extend_append (b : Buffer) (l l' : String) :
    b.extend (l ++ l') = (b.extend l).extend l' := by
  cases b <;> simp [Buffer.extend, String.append_assoc]

mutual

theorem carryOut_eq (own : String) (b : Buffer) (a : Activity) :
    carryOut own b a = ⟨b.extend (LogEvent.lines own a.raised), a.outcomes own, a.panics⟩ := by
  cases a with
  | event e =>
    rw [carryOut, Activity.raised, LogEvent.lines_cons, LogEvent.lines_nil, String.append_empty]
    rfl
  | panic => simp [carryOut, Activity.raised, Activity.outcomes, Activity.panics]
  | scope body =>
    rw [carryOut, Guard.enter]
    simp only [carryOutAll_eq own (some "") body, Activity.panics, Activity.raised,
      Activity.outcomes]
    cases anyPanics body with
    | true => simp [Guard.drop]
    | false => simp [Guard.finish, Guard.drop, Buffer.extend]
  | caught body =>
    rw [carryOut, carryOutAll_eq own b body]
    rfl

theorem carryOutAll_eq (own : String) (b : Buffer) (as : List Activity) :
    carryOutAll own b as =
      ⟨b.extend (LogEvent.lines own (allRaised as)), allOutcomes own as, anyPanics as⟩ := by
  cases as with
  | nil => simp [allRaised, allOutcomes, anyPanics]
  | cons a rest =>
    rw [carryOutAll, carryOut_eq own b a]
    simp only [allRaised, allOutcomes, anyPanics]
    cases a.panics with
    | true => simp
    | false =>
      simp [carryOutAll_eq own _ rest, LogEvent.lines_append, Buffer.extend_append]

end

/-- What a scope hands over are the lines of the events raised directly in it, in order, without the
runner's own and without those of scopes inside it or around it; a scope that a panic leaves hands
nothing over. Either way the buffer around it is as the scope has found it, and takes the lines of
the events that come later. Without a scope around them, events leave nothing. -/
theorem scopes_nest (own : String) (b : Buffer) (as : List Activity) :
    (carryOutAll own b as).outcomes = allOutcomes own as ∧
      (carryOutAll own b as).buffer = b.extend (LogEvent.lines own (allRaised as)) ∧
      (carryOutAll own b as).panicked = anyPanics as ∧
      (∀ body, (carryOut own b (.scope body)).buffer = b) ∧
      (carryOutAll own none as).buffer = none := by
  refine ⟨?_, ?_, ?_, fun body => ?_, ?_⟩
  · rw [carryOutAll_eq]
  · rw [carryOutAll_eq]
  · rw [carryOutAll_eq]
  · rw [carryOut_eq]
    exact b.extend_empty
  · rw [carryOutAll_eq]
    rfl

end Log

end Rehearsal
