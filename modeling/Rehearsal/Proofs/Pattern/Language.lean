import Rehearsal.Pattern.ParameterType
import Rehearsal.Proofs.Search

/-!
# The languages of placeholders

`ParameterType.Allows` says which texts a placeholder may stand for, without a word on regular
expressions. `Regex.Denotes` ties an expression without groups and look-around to such a language:
it covers a part of a text if and only if the part is in the language. The expressions of the
built-in types are put together from few constructions, and so are their languages.
-/

namespace Rehearsal

/-! ### Languages -/

/-- One or more decimal digits of any script. -/
def IsDigits (w : List Char) : Prop := w ≠ [] ∧ ∀ c ∈ w, Text.isDecimalDigit c = true

def IsSign (w : List Char) : Prop := w = [] ∨ w = ['-'] ∨ w = ['+']

/-- An optional sign and digits. -/
def IsInt (w : List Char) : Prop := ∃ s d, w = s ++ d ∧ IsSign s ∧ IsDigits d

/-- Digits, digits with a point after them and possibly more digits after that, or digits after a
point. -/
def IsMantissa (w : List Char) : Prop :=
  (∃ d f, w = d ++ '.' :: f ∧ IsDigits d ∧ ∀ c ∈ f, Text.isDecimalDigit c = true) ∨
    (∃ f, w = '.' :: f ∧ IsDigits f) ∨ IsDigits w

/-- Nothing, or `e` or `E` with an integer. -/
def IsExponent (w : List Char) : Prop :=
  w = [] ∨ ∃ e d, w = e :: d ∧ (e = 'e' ∨ e = 'E') ∧ IsInt d

def IsFloat (w : List Char) : Prop :=
  ∃ s m e, w = s ++ (m ++ e) ∧ IsSign s ∧ IsMantissa m ∧ IsExponent e

/-- What a placeholder stands for: without a type some text on one line, and else what the built-in
type says. -/
inductive ParameterType.Allows : Option ParameterType → List Char → Prop where
  | untyped {w : List Char} (hne : w ≠ []) (h : ∀ c ∈ w, c ≠ '\n') : Allows none w
  | int {name : String} {w : List Char} (h : IsInt w) : Allows (some (.int name)) w
  | float {name : String} {w : List Char} (h : IsFloat w) : Allows (some (.float name)) w
  | word {name : String} {w : List Char} (hne : w ≠ []) (h : ∀ c ∈ w, Text.isBlank c = false) :
    Allows (some (.word name)) w

namespace ParameterType

variable {name : String} {w : List Char}

theorem allows_none_iff : Allows none w ↔ w ≠ [] ∧ ∀ c ∈ w, c ≠ '\n' := by
  constructor
  · intro h
    cases h with
    | untyped hne h => exact ⟨hne, h⟩
  · exact fun ⟨hne, h⟩ => .untyped hne h

/-- Types with different expressions are different. -/
theorem ne_of_regex {s t : ParameterType} (h : s.regex ≠ t.regex) : some s ≠ some t :=
  fun heq => h (congrArg ParameterType.regex (Option.some.inj heq))

theorem allows_int_iff : Allows (some (.int name)) w ↔ IsInt w := by
  refine ⟨fun h => ?_, .int⟩
  generalize htype : some (ParameterType.int name) = type at h
  cases h with
  | int h => exact h
  | untyped => cases htype
  | float | word => exact absurd htype (ne_of_regex (by simp [int, float, word]))

theorem allows_float_iff : Allows (some (.float name)) w ↔ IsFloat w := by
  refine ⟨fun h => ?_, .float⟩
  generalize htype : some (ParameterType.float name) = type at h
  cases h with
  | float h => exact h
  | untyped => cases htype
  | int | word => exact absurd htype (ne_of_regex (by simp [int, float, word]))

theorem allows_word_iff :
    Allows (some (.word name)) w ↔ w ≠ [] ∧ ∀ c ∈ w, Text.isBlank c = false := by
  refine ⟨fun h => ?_, fun ⟨hne, h⟩ => .word hne h⟩
  generalize htype : some (ParameterType.word name) = type at h
  cases h with
  | word hne h => exact ⟨hne, h⟩
  | untyped => cases htype
  | int | float => exact absurd htype (ne_of_regex (by simp [int, float, word]))

end ParameterType

/-! ### Expressions and languages -/

namespace Regex

variable {r a b : Regex} {L M : List Char → Prop} {cs u v : List Char} {i j : Nat}
  {ms : List Mark}

/-- The part of the text from the position on is the given one. -/
def Stretch (cs : List Char) (i : Nat) (w : List Char) (j : Nat) : Prop :=
  w <+: cs.drop i ∧ j = i + w.length

theorem stretch_nil_iff : Stretch cs i [] j ↔ j = i := by
  simp [Stretch]

theorem stretch_singleton_iff {x : Char} : Stretch cs i [x] j ↔ cs[i]? = some x ∧ j = i + 1 := by
  rw [Stretch, ← List.head?_drop]
  cases cs.drop i with
  | nil => simp
  | cons y rest => simp [@eq_comm _ x]

theorem stretch_append_iff :
    Stretch cs i (u ++ v) j ↔ ∃ k, Stretch cs i u k ∧ Stretch cs k v j := by
  constructor
  · rintro ⟨⟨rest, hrest⟩, rfl⟩
    refine ⟨i + u.length, ⟨⟨v ++ rest, by simpa using hrest⟩, rfl⟩, ⟨rest, ?_⟩,
      by simp [Nat.add_assoc]⟩
    rw [← List.drop_drop, ← hrest]
    simp
  · rintro ⟨k, ⟨⟨rest, hrest⟩, rfl⟩, ⟨rest', hrest'⟩, rfl⟩
    refine ⟨⟨rest', ?_⟩, by simp [Nat.add_assoc]⟩
    rw [← List.drop_drop, ← hrest, List.drop_left] at hrest'
    rw [← hrest, ← hrest', List.append_assoc]

/-- The expression covers exactly the texts of the language, and sets no marks. -/
def Denotes (r : Regex) (L : List Char → Prop) : Prop :=
  ∀ (cs : List Char) (i j : Nat) (ms : List Mark),
    Traces cs.toArray r i j ms ↔ ms = [] ∧ ∃ w, Stretch cs i w j ∧ L w

theorem Denotes.congr (h : Denotes r L) (hiff : ∀ w, L w ↔ M w) : Denotes r M := by
  have heq : L = M := funext fun w => propext (hiff w)
  exact heq ▸ h

theorem denotes_one (c : CharClass) :
    Denotes (.one c) fun w => ∃ x, w = [x] ∧ c.contains x = true := by
  intro cs i j ms
  constructor
  · intro h
    cases h with
    | @one _ _ x hx hc =>
      exact ⟨rfl, [x], stretch_singleton_iff.2 ⟨by simpa using hx, rfl⟩, x, rfl, hc⟩
  · rintro ⟨rfl, w, hw, x, rfl, hc⟩
    obtain ⟨hx, rfl⟩ := stretch_singleton_iff.1 hw
    exact .one (by simpa using hx) hc

theorem Denotes.enclosed (h : Denotes r L) : Denotes (.enclosed r) L := by
  intro cs i j ms
  rw [traces_enclosed_iff, h cs i j ms]

theorem Denotes.seq (ha : Denotes a L) (hb : Denotes b M) :
    Denotes (.seq a b) fun w => ∃ u v, w = u ++ v ∧ L u ∧ M v := by
  intro cs i j ms
  simp only [traces_seq_iff, ha cs, hb cs]
  constructor
  · rintro ⟨k, _, _, ⟨rfl, u, hu, hLu⟩, ⟨rfl, v, hv, hMv⟩, rfl⟩
    exact ⟨rfl, u ++ v, stretch_append_iff.2 ⟨k, hu, hv⟩, u, v, rfl, hLu, hMv⟩
  · rintro ⟨rfl, w, hw, u, v, rfl, hLu, hMv⟩
    obtain ⟨k, hu, hv⟩ := stretch_append_iff.1 hw
    exact ⟨k, [], [], ⟨rfl, u, hu, hLu⟩, ⟨rfl, v, hv, hMv⟩, rfl⟩

theorem Denotes.alt (ha : Denotes a L) (hb : Denotes b M) :
    Denotes (.alt a b) fun w => L w ∨ M w := by
  intro cs i j ms
  rw [traces_alt_iff, ha cs i j ms, hb cs i j ms, ← and_or_left, ← exists_or]
  simp only [and_or_left]

theorem Denotes.optional (h : Denotes r L) (greedy : Bool) :
    Denotes (.rounds 0 (some 1) greedy r) fun w => w = [] ∨ L w := by
  intro cs i j ms
  have hnone : ∀ k ms', Traces cs.toArray (.rounds 0 (some 0) greedy r) k j ms' ↔
      j = k ∧ ms' = [] := by
    intro k ms'
    rw [traces_rounds_iff]
    simp
  rw [traces_rounds_iff]
  constructor
  · rintro (⟨-, rfl, rfl⟩ | ⟨-, k, ms₁, ms₂, hround, hrest, rfl⟩)
    · exact ⟨rfl, [], stretch_nil_iff.2 rfl, .inl rfl⟩
    · obtain ⟨rfl, rfl⟩ := (hnone k ms₂).1 hrest
      obtain ⟨rfl, w, hw, hL⟩ := (h ..).1 hround
      exact ⟨rfl, w, hw, .inr hL⟩
  · rintro ⟨rfl, w, hw, rfl | hL⟩
    · exact .inl ⟨rfl, stretch_nil_iff.1 hw, rfl⟩
    · exact .inr ⟨.inr (by simp), j, [], [], (h ..).2 ⟨rfl, w, hw, hL⟩,
        (hnone j []).2 ⟨rfl, rfl⟩, rfl⟩

theorem denotes_star (c : CharClass) (greedy : Bool) :
    Denotes (.rounds 0 none greedy (.one c)) fun w => ∀ x ∈ w, c.contains x = true := by
  intro cs i j ms
  constructor
  · intro h
    generalize hr : Regex.rounds 0 none greedy (.one c) = r at h
    induction h with
    | roundsNone =>
      exact ⟨rfl, [], stretch_nil_iff.2 rfl, by simp⟩
    | roundsMore hmore h hs ih ihs =>
      cases hr
      obtain ⟨rfl, u, hu, x, rfl, hc⟩ := (denotes_one c ..).1 h
      obtain ⟨rfl, v, hv, hall⟩ := ihs rfl
      exact ⟨rfl, [x] ++ v, stretch_append_iff.2 ⟨_, hu, hv⟩, List.forall_mem_cons.2 ⟨hc, hall⟩⟩
    | empty | one | look | group | enclosed | seq | altLeft | altRight => cases hr
  · rintro ⟨rfl, w, hw, hall⟩
    induction w generalizing i with
    | nil =>
      obtain rfl := stretch_nil_iff.1 hw
      exact .roundsNone
    | cons x v ih =>
      obtain ⟨hc, hrest⟩ := List.forall_mem_cons.1 hall
      obtain ⟨k, hx, hv⟩ := (stretch_append_iff (u := [x])).1 hw
      have hround := (denotes_one c cs i k []).2 ⟨rfl, [x], hx, x, rfl, hc⟩
      have hrounds : Traces cs.toArray (.rounds 0 none greedy (.one c)) i j ([] ++ []) :=
        .roundsMore (.inr (by simp)) hround (ih k hv hrest)
      exact hrounds

theorem denotes_plus (c : CharClass) (greedy : Bool) :
    Denotes (.rounds 1 none greedy (.one c)) fun w =>
      w ≠ [] ∧ ∀ x ∈ w, c.contains x = true := by
  intro cs i j ms
  rw [traces_rounds_iff]
  constructor
  · rintro (⟨h, -, -⟩ | ⟨-, k, ms₁, ms₂, hround, hrest, rfl⟩)
    · cases h
    · obtain ⟨rfl, u, hu, x, rfl, hc⟩ := (denotes_one c ..).1 hround
      obtain ⟨rfl, v, hv, hall⟩ := (denotes_star c greedy ..).1 hrest
      exact ⟨rfl, [x] ++ v, stretch_append_iff.2 ⟨_, hu, hv⟩, by simp,
        List.forall_mem_cons.2 ⟨hc, hall⟩⟩
  · rintro ⟨rfl, w, hw, hne, hall⟩
    obtain ⟨x, v, rfl⟩ := List.exists_cons_of_ne_nil hne
    obtain ⟨hc, hrest⟩ := List.forall_mem_cons.1 hall
    obtain ⟨k, hx, hv⟩ := (stretch_append_iff (u := [x])).1 hw
    exact .inr ⟨.inl (by decide), k, [], [], (denotes_one c ..).2 ⟨rfl, [x], hx, x, rfl, hc⟩,
      (denotes_star c greedy ..).2 ⟨rfl, v, hv, hrest⟩, rfl⟩

/-! ### The expressions of the built-in types -/

def anyOnLine : Regex := .rounds 1 none false (.one (.except ['\n']))

def sign : Regex := .rounds 0 (some 1) true (.one (.union (.single '-') (.single '+')))

def digits : Regex := .rounds 1 none true (.one (.digit false))

def point : Regex := .one (.single '.')

def mantissa : Regex :=
  .alt (.seq digits (.seq point (.rounds 0 none true (.one (.digit false)))))
    (.alt (.seq point digits) digits)

def exponent : Regex :=
  .rounds 0 (some 1) true
    (.enclosed (.seq (.one (.union (.single 'e') (.single 'E'))) (.seq sign digits)))

def nonBlanks : Regex := .rounds 1 none true (.one (.complement (.space false)))

theorem denotes_anyOnLine : Denotes anyOnLine (ParameterType.Allows none) := by
  refine (denotes_plus _ _).congr fun w => ?_
  have hset : ∀ x : Char, (CharClass.except ['\n']).contains x = true ↔ x ≠ '\n' := by
    intro x
    rw [← Bool.not_eq_false, ne_eq, ← CharClass.contains_single]
    simp [CharClass.except]
  simp only [hset, ParameterType.allows_none_iff]

theorem denotes_sign : Denotes sign IsSign := by
  refine (denotes_one _ |>.optional true).congr fun w => ?_
  simp only [CharClass.contains_union, Bool.or_eq_true, CharClass.contains_single, IsSign]
  refine or_congr_right ⟨?_, ?_⟩
  · rintro ⟨x, rfl, rfl | rfl⟩ <;> simp
  · rintro (rfl | rfl) <;> simp

theorem contains_digit (c : Char) :
    (CharClass.digit false).contains c = Text.isDecimalDigit c := by
  simp only [CharClass.contains, Bool.false_eq_true, if_false]

theorem denotes_digits : Denotes digits IsDigits := by
  refine (denotes_plus _ _).congr fun w => ?_
  simp only [contains_digit, IsDigits]

theorem denotes_int : Denotes (.seq sign digits) IsInt := denotes_sign.seq denotes_digits

theorem denotes_point : Denotes point (· = ['.']) := by
  refine (denotes_one _).congr fun w => ?_
  simp [CharClass.contains_single]

theorem denotes_mantissa : Denotes mantissa IsMantissa := by
  have hwhole := denotes_digits.seq (denotes_point.seq (denotes_star (.digit false) true))
  refine (hwhole.alt ((denotes_point.seq denotes_digits).alt denotes_digits)).congr fun w => ?_
  simp only [contains_digit, IsMantissa]
  refine or_congr ⟨?_, ?_⟩ (or_congr_left ⟨?_, ?_⟩)
  · rintro ⟨d, _, rfl, hd, _, f, rfl, rfl, hf⟩
    exact ⟨d, f, rfl, hd, hf⟩
  · rintro ⟨d, f, rfl, hd, hf⟩
    exact ⟨d, _, rfl, hd, ['.'], f, rfl, rfl, hf⟩
  · rintro ⟨_, f, rfl, rfl, hf⟩
    exact ⟨f, rfl, hf⟩
  · rintro ⟨f, rfl, hf⟩
    exact ⟨['.'], f, rfl, rfl, hf⟩

theorem denotes_exponent : Denotes exponent IsExponent := by
  refine ((denotes_one _).seq denotes_int).enclosed.optional true |>.congr fun w => ?_
  simp only [CharClass.contains_union, Bool.or_eq_true, CharClass.contains_single, IsExponent]
  refine or_congr_right ⟨?_, ?_⟩
  · rintro ⟨_, d, rfl, ⟨e, rfl, he⟩, hd⟩
    exact ⟨e, d, rfl, he, hd⟩
  · rintro ⟨e, d, rfl, he, hd⟩
    exact ⟨[e], d, rfl, ⟨e, rfl, he⟩, hd⟩

theorem denotes_float : Denotes (.seq sign (.seq (.enclosed mantissa) exponent)) IsFloat := by
  refine (denotes_sign.seq (denotes_mantissa.enclosed.seq denotes_exponent)).congr fun w => ?_
  constructor
  · rintro ⟨s, _, rfl, hs, m, e, rfl, hm, he⟩
    exact ⟨s, m, e, rfl, hs, hm, he⟩
  · rintro ⟨s, m, e, rfl, hs, hm, he⟩
    exact ⟨s, m ++ e, rfl, hs, m, e, rfl, hm, he⟩

theorem denotes_nonBlanks (name : String) :
    Denotes nonBlanks (ParameterType.Allows (some (.word name))) := by
  refine (denotes_plus _ _).congr fun w => ?_
  have hset : ∀ x : Char, (CharClass.complement (.space false)).contains x = true ↔
      Text.isBlank x = false := by
    intro x
    simp only [CharClass.contains, Bool.false_eq_true, if_false, Bool.not_eq_true']
  simp only [hset, ParameterType.allows_word_iff]

end Regex

end Rehearsal
