import ForeignCall.Json.Printer
import ForeignCall.Json.Reader
import Mathlib.Data.List.Basic
import Mathlib.Data.List.TakeDrop
import Mathlib.Tactic.Common

/-!
What is written as JSON text is read as what it was.

A value is read off the front of a text, so the statements have a rest behind it. A number needs to
know what the rest begins with, since digits go on until something else follows. The steps that are
enough for a value are one more than its characters, and every part of it has fewer.
-/

set_option autoImplicit false

namespace ForeignCall

namespace Json

/-- Values in which no number is a decimal and no text has half of a surrogate pair. -/
inductive Plain : Json → Prop
  | null : Plain .null
  | bool (b : Bool) : Plain (.bool b)
  | integer (i : Int) : Plain (.integer i)
  | text (s : String) : Plain (.text s)
  | array {items : List Json} (plain : ∀ j ∈ items, Plain j) : Plain (.array items)
  | record {members : List (String × Json)} (plain : ∀ m ∈ members, Plain m.2) :
      Plain (.record members)

@[simp] theorem plain_text (s : String) : (text s).Plain := .text s

@[simp] theorem plain_ofNat (n : Nat) : (ofNat n).Plain := .integer n

@[simp] theorem plain_bool (b : Bool) : (bool b).Plain := .bool b

/-! ### Texts -/

theorem hexValue?_digitChar : ∀ d < 16, hexValue? (Nat.digitChar d) = some d := by decide

theorem hexQuad?_of_control {n : Nat} (control : n < 0x20) :
    hexQuad? '0' '0' (hexDigit (n / 16)) (hexDigit n) = some n := by
  have zero : hexValue? '0' = some 0 := rfl
  have high := hexValue?_digitChar (n / 16 % 16) (Nat.mod_lt _ (by decide))
  have low := hexValue?_digitChar (n % 16) (Nat.mod_lt _ (by decide))
  simp only [hexQuad?, hexDigit, zero, high, low, Option.bind_eq_bind, Option.bind_some,
    Option.pure_def, Option.some.injEq]
  omega

/-- Characters in reverse, none of which waits for another. -/
def Draft.ofChars (chars : List Char) : Draft := ⟨chars, none, true⟩

theorem Draft.pushUnit_ofChars {chars : List Char} {c : Char} (control : c.toNat < 0x20) :
    (ofChars chars).pushUnit c.toNat = ofChars (c :: chars) := by
  rw [pushUnit, if_neg (by omega), if_neg (by omega), Char.ofNat_toNat]
  rfl

theorem readText_escape {d : Draft} {a b c e : Char} {u : Nat} (quad : hexQuad? a b c e = some u)
    (rest : List Char) :
    readText d ('\\' :: 'u' :: a :: b :: c :: e :: rest) = readText (d.pushUnit u) rest := by
  rw [readText, quad]

theorem readText_writeChar (chars : List Char) (c : Char) (rest : List Char) :
    readText (.ofChars chars) (writeChar c ++ rest) = readText (.ofChars (c :: chars)) rest := by
  simp only [writeChar, beq_iff_eq]
  split_ifs with quote backslash control
  · rw [quote]
    rfl
  · rw [backslash]
    rfl
  · refine (readText_escape (hexQuad?_of_control control) rest).trans ?_
    rw [Draft.pushUnit_ofChars control]
  · rw [List.singleton_append, readText, if_neg (by simp [control, backslash])]
    · rfl
    · exact quote
    · exact fun _ _ _ _ _ same => absurd same backslash
    · exact fun _ _ same => absurd same backslash

theorem readText_flatMap (s chars rest : List Char) :
    readText (.ofChars chars) (s.flatMap writeChar ++ '"' :: rest) =
      some (some (String.ofList (chars.reverse ++ s)), rest) := by
  induction s generalizing chars with
  | nil => simp [readText, Draft.finish, Draft.ofChars]
  | cons c s ih =>
    rw [List.flatMap_cons, List.append_assoc, readText_writeChar, ih]
    simp

theorem readText_writeText (s : String) (rest : List Char) :
    ∃ tail, (writeText s).toList ++ rest = '"' :: tail ∧
      readText .empty tail = some (some s, rest) := by
  refine ⟨s.toList.flatMap writeChar ++ '"' :: rest, ?_, ?_⟩
  · simp [writeText]
  · have read := readText_flatMap s.toList [] rest
    rwa [List.reverse_nil, List.nil_append, String.ofList_toList] at read

/-! ### Numbers -/

/-- What may stand behind a value: the end, a comma or a closing bracket. -/
def Follows (rest : List Char) : Prop := ∀ c ∈ rest.head?, c = ',' ∨ c = ']' ∨ c = '\x7d'

theorem Follows.spanDigits {digits rest : List Char} (follows : Follows rest)
    (all : ∀ c ∈ digits, c.isDigit = true) : spanDigits (digits ++ rest) = (digits, rest) := by
  have ends : rest.takeWhile Char.isDigit = [] ∧ rest.dropWhile Char.isDigit = rest := by
    cases rest with
    | nil => exact ⟨rfl, rfl⟩
    | cons c rest => rcases follows c rfl with rfl | rfl | rfl <;> exact ⟨rfl, rfl⟩
  rw [Json.spanDigits, List.span_eq_takeWhile_dropWhile, List.takeWhile_append_of_pos all,
    List.dropWhile_append_of_pos all, ends.1, ends.2, List.append_nil]

theorem Follows.readFraction {rest : List Char} (follows : Follows rest) :
    readFraction rest = some ([], rest) := by
  cases rest with
  | nil => rfl
  | cons c rest => rcases follows c rfl with rfl | rfl | rfl <;> rfl

theorem Follows.readExponent {rest : List Char} (follows : Follows rest) :
    readExponent rest = some ([], rest) := by
  cases rest with
  | nil => rfl
  | cons c rest => rcases follows c rfl with rfl | rfl | rfl <;> rfl

theorem digitsValue_toDigits (n : Nat) : digitsValue (Nat.toDigits 10 n) = n := by
  have value := Nat.ofDigitChars_toDigits (b := 10) (n := n) (by decide) (by decide)
  rw [Nat.ofDigitChars_eq_foldl] at value
  simpa only [digitsValue, Nat.mul_comm] using value

/-- Only zero is written with a zero in front. -/
theorem head?_toDigits {n : Nat} (positive : n ≠ 0) : (Nat.toDigits 10 n).head? ≠ some '0' := by
  induction n using Nat.strongRecOn with
  | ind n ih =>
    rw [Nat.toDigits_eq_if (by decide)]
    split
    · rename_i small
      have digits : ∀ d < 10, d ≠ 0 → [Nat.digitChar d].head? ≠ some '0' := by decide
      exact digits n small positive
    · rw [List.head?_append_of_ne_nil _ Nat.toDigits_ne_nil]
      exact ih (n / 10) (by omega) (by omega)

theorem readMagnitude_toDigits (n : Nat) (negative : Bool) {rest : List Char}
    (follows : Follows rest) (signed : negative = true → n ≠ 0) :
    readMagnitude negative (Nat.toDigits 10 n ++ rest) =
      some (.integer (if negative then -(n : Int) else n), rest) := by
  have digits : spanDigits (Nat.toDigits 10 n ++ rest) = (Nat.toDigits 10 n, rest) :=
    follows.spanDigits fun c => Nat.isDigit_of_mem_toDigits (by decide) (by decide)
  have plain : ((Nat.toDigits 10 n).isEmpty ||
      ((Nat.toDigits 10 n).head? == some '0' && (Nat.toDigits 10 n).length != 1)) = false := by
    by_cases zero : n = 0
    · rw [zero]
      rfl
    · simp [Nat.toDigits_ne_nil, head?_toDigits zero]
  have whole : (!(negative && n == 0)) = true := by
    cases negative with
    | false => rfl
    | true => simpa using signed rfl
  simp only [readMagnitude, digits, plain, follows.readFraction, follows.readExponent,
    digitsValue_toDigits, Bool.false_eq_true, if_false, Option.bind_eq_bind, Option.bind_some,
    List.isEmpty_nil, Bool.true_and, whole, if_true, Option.pure_def]

theorem toList_toString_ofNat (n : Nat) : (toString (Int.ofNat n)).toList = Nat.toDigits 10 n :=
  String.toList_ofList

theorem toList_toString_negSucc (n : Nat) :
    (toString (Int.negSucc n)).toList = '-' :: Nat.toDigits 10 (n + 1) := by
  change ("-" ++ Nat.repr (n + 1)).toList = _
  simp [Nat.repr]

theorem begins_toDigits (n : Nat) :
    ∃ c rest, Nat.toDigits 10 n = c :: rest ∧ c.isDigit = true := by
  cases shown : Nat.toDigits 10 n with
  | nil => exact absurd shown Nat.toDigits_ne_nil
  | cons c rest =>
    refine ⟨c, rest, rfl, ?_⟩
    exact Nat.isDigit_of_mem_toDigits (b := 10) (n := n) (by decide) (by decide) (by simp [shown])

/-- A digit or the sign of a number. -/
def StartsNumber (c : Char) : Prop := c = '-' ∨ c.isDigit = true

instance (c : Char) : Decidable (StartsNumber c) := inferInstanceAs (Decidable (_ ∨ _))

theorem begins_toString (i : Int) : ∃ c rest, (toString i).toList = c :: rest ∧ StartsNumber c := by
  cases i with
  | ofNat n =>
    obtain ⟨c, rest, shown, digit⟩ := begins_toDigits n
    exact ⟨c, rest, (toList_toString_ofNat n).trans shown, .inr digit⟩
  | negSucc n => exact ⟨'-', _, toList_toString_negSucc n, .inl rfl⟩

theorem readNumber_of_digit {c : Char} (digit : c.isDigit = true) (rest : List Char) :
    readNumber (c :: rest) = readMagnitude false (c :: rest) := by
  unfold readNumber
  split
  · rename_i same
    cases same
    exact absurd digit (by decide)
  · rfl

theorem readNumber_toString {i : Int} {rest : List Char} (follows : Follows rest) :
    readNumber ((toString i).toList ++ rest) = some (.integer i, rest) := by
  cases i with
  | ofNat n =>
    have read := readMagnitude_toDigits n false follows nofun
    obtain ⟨c, digits, shown, digit⟩ := begins_toDigits n
    rw [toList_toString_ofNat, shown, List.cons_append, readNumber_of_digit digit,
      ← List.cons_append, ← shown]
    simpa using read
  | negSucc n =>
    have read := readMagnitude_toDigits (n + 1) true follows fun _ => n.succ_ne_zero
    rw [toList_toString_negSucc, List.cons_append, readNumber]
    simpa [Int.negSucc_eq] using read

/-! ### Values -/

theorem skipBlanks_cons {c : Char} {rest : List Char} (shown : isBlank c = false) :
    skipBlanks (c :: rest) = c :: rest := by
  rw [skipBlanks, List.dropWhile_cons_of_neg (by simp [shown])]

theorem StartsNumber.isBlank {c : Char} (number : StartsNumber c) : isBlank c = false := by
  by_contra blank
  simp only [Json.isBlank, Bool.not_eq_false, Bool.or_eq_true, beq_iff_eq, or_assoc] at blank
  rcases blank with rfl | rfl | rfl | rfl <;> exact absurd number (by decide)

theorem readValue_quote (fuel : Nat) (rest : List Char) :
    readValue (fuel + 1) ('"' :: rest) = (do
      let (s, rest) ← readText .empty rest
      return (.string s, rest)) := rfl

theorem readValue_number {c : Char} (number : StartsNumber c) (fuel : Nat)
    (rest : List Char) : readValue (fuel + 1) (c :: rest) = readNumber (c :: rest) := by
  rw [readValue, skipBlanks_cons number.isBlank]
  split
  · rename_i none
    cases none
  all_goals try rfl
  all_goals
    rename_i same
    cases same
    exact absurd number (by decide)

/-- Given a step for each character, the value is read off the front of whatever may follow it. -/
def Reads (j : Json) : Prop :=
  ∀ fuel rest, Follows rest → j.render.toList.length < fuel →
    readValue fuel (j.render.toList ++ rest) = some (j, rest)

theorem reads_null : Reads .null := by
  rintro (_ | fuel) rest follows enough
  · cases enough
  · rfl

theorem reads_bool (b : Bool) : Reads (.bool b) := by
  rintro (_ | fuel) rest follows enough
  · cases enough
  · cases b <;> rfl

theorem reads_string (s : String) : Reads (.text s) := by
  rintro (_ | fuel) rest follows enough
  · cases enough
  · obtain ⟨tail, written, read⟩ := readText_writeText s rest
    have shown : (Json.text s).render.toList ++ rest = '"' :: tail := written
    rw [shown, readValue_quote, read]
    rfl

theorem reads_integer (i : Int) : Reads (.integer i) := by
  rintro (_ | fuel) rest follows enough
  · cases enough
  · obtain ⟨c, tail, written, number⟩ := begins_toString i
    have shown : (Json.integer i).render.toList = c :: tail := written
    rw [shown, List.cons_append, readValue_number number, ← List.cons_append, ← written]
    exact readNumber_toString follows

/-! ### Arrays and objects -/

theorem begins_render {j : Json} (plain : j.Plain) :
    ∃ c rest, j.render.toList = c :: rest ∧ isBlank c = false ∧ c ≠ ']' := by
  cases plain with
  | null => exact ⟨'n', _, rfl, rfl, by decide⟩
  | bool b =>
    cases b
    · exact ⟨'f', _, rfl, rfl, by decide⟩
    · exact ⟨'t', _, rfl, rfl, by decide⟩
  | integer i =>
    obtain ⟨c, rest, written, number⟩ := begins_toString i
    refine ⟨c, rest, written, number.isBlank, ?_⟩
    rintro rfl
    exact absurd number (by decide)
  | text s =>
    obtain ⟨rest, written, -⟩ := readText_writeText s []
    exact ⟨'"', rest, (List.append_nil _).symm.trans written, rfl, by decide⟩
  | array => exact ⟨'[', _, by rw [render]; simp; rfl, rfl, by decide⟩
  | record => exact ⟨'\x7b', _, by rw [Json.record, render]; simp; rfl, rfl, by decide⟩

theorem follows_cons {c : Char} (rest : List Char) (closes : c = ',' ∨ c = ']' ∨ c = '\x7d') :
    Follows (c :: rest) := by
  rintro d ⟨⟩
  exact closes

theorem toList_renderItems_cons {items : List Json} (j : Json) (more : items ≠ []) :
    (renderItems (j :: items)).toList = j.render.toList ++ ',' :: (renderItems items).toList := by
  cases items with
  | nil => exact absurd rfl more
  | cons k items => simp [renderItems]

theorem readItems_render {items : List Json} {fuel : Nat} {rest : List Char} (filled : items ≠ [])
    (reads : ∀ j ∈ items, Reads j) (enough : (renderItems items).toList.length + 1 < fuel) :
    readItems fuel ((renderItems items).toList ++ ']' :: rest) = some (items, rest) := by
  induction items generalizing fuel with
  | nil => exact absurd rfl filled
  | cons j items ih =>
    obtain ⟨first, later⟩ := List.forall_mem_cons.1 reads
    obtain ⟨fuel, rfl⟩ : ∃ n, fuel = n + 1 := ⟨fuel - 1, by omega⟩
    by_cases more : items = []
    · subst more
      have read := first fuel (']' :: rest) (follows_cons _ (by decide))
        (Nat.lt_of_succ_lt_succ enough)
      rw [renderItems, readItems, read]
      rfl
    · rw [toList_renderItems_cons j more, List.length_append, List.length_cons] at enough
      have read := first fuel (',' :: ((renderItems items).toList ++ ']' :: rest))
        (follows_cons _ (by decide)) (by omega)
      have others : readItems fuel ((renderItems items).toList ++ ']' :: rest) =
          some (items, rest) := ih more later (by omega)
      rw [toList_renderItems_cons j more, List.append_assoc, List.cons_append, readItems, read]
      change (readItems fuel _ >>= _) = _
      rw [others]
      rfl

theorem begins_renderItems {items : List Json} (filled : items ≠ [])
    (plain : ∀ j ∈ items, j.Plain) :
    ∃ c rest, (renderItems items).toList = c :: rest ∧ isBlank c = false ∧ c ≠ ']' := by
  cases items with
  | nil => exact absurd rfl filled
  | cons j items =>
    obtain ⟨c, rest, written, begins⟩ := begins_render (plain j List.mem_cons_self)
    by_cases more : items = []
    · subst more
      exact ⟨c, rest, written, begins⟩
    · refine ⟨c, rest ++ ',' :: (renderItems items).toList, ?_, begins⟩
      rw [toList_renderItems_cons j more, written, List.cons_append]

theorem readValue_bracket {c : Char} (shown : isBlank c = false) (more : c ≠ ']') (fuel : Nat)
    (rest : List Char) :
    readValue (fuel + 1) ('[' :: c :: rest) = (do
      let (items, rest) ← readItems fuel (c :: rest)
      return (.array items, rest)) := by
  have bracket : skipBlanks ('[' :: c :: rest) = '[' :: c :: rest := skipBlanks_cons rfl
  simp only [readValue, bracket, skipBlanks_cons shown]
  split
  · rename_i same
    cases same
    exact absurd rfl more
  · rfl

theorem reads_array {items : List Json} (plain : ∀ j ∈ items, j.Plain)
    (reads : ∀ j ∈ items, Reads j) : Reads (.array items) := by
  rintro (_ | fuel) rest follows enough
  · cases enough
  · have shown : (Json.array items).render.toList =
        '[' :: ((renderItems items).toList ++ [']']) := by
      simp [render]
    rw [shown] at enough ⊢
    by_cases empty : items = []
    · subst empty
      rfl
    · obtain ⟨c, tail, written, begins, other⟩ := begins_renderItems empty plain
      simp only [List.length_cons, List.length_append, List.length_nil] at enough
      have read : readItems fuel ((renderItems items).toList ++ ']' :: rest) = some (items, rest) :=
        readItems_render empty reads (by omega)
      rw [written] at read
      rw [List.cons_append, List.append_assoc, written, List.cons_append,
        readValue_bracket begins other]
      change (readItems fuel (c :: tail ++ ']' :: rest) >>= _) = _
      rw [read]
      rfl

theorem toList_renderMembers_cons {members : List (Option String × Json)} (name : String) (j : Json)
    (more : members ≠ []) :
    (renderMembers ((some name, j) :: members)).toList = (writeText name).toList ++
      ':' :: (j.render.toList ++ ',' :: (renderMembers members).toList) := by
  cases members with
  | nil => exact absurd rfl more
  | cons m members => simp [renderMembers, writeString]

theorem readMembers_name (fuel : Nat) (name : String) (rest : List Char) :
    readMembers (fuel + 1) ((writeText name).toList ++ ':' :: rest) = (do
      let (value, rest) ← readValue fuel rest
      match skipBlanks rest with
      | ',' :: rest =>
        let (members, rest) ← readMembers fuel rest
        return ((some name, value) :: members, rest)
      | '\x7d' :: rest => return ([(some name, value)], rest)
      | _ => none) := by
  obtain ⟨tail, written, read⟩ := readText_writeText name (':' :: rest)
  rw [written, readMembers, skipBlanks_cons rfl]
  change (readText .empty tail >>= _) = _
  rw [read]
  rfl

/-- The members of an object as they are kept. -/
def named (members : List (String × Json)) : List (Option String × Json) :=
  members.map fun (name, value) => (some name, value)

theorem readMembers_render {members : List (String × Json)} {fuel : Nat} {rest : List Char}
    (filled : members ≠ []) (reads : ∀ m ∈ members, Reads m.2)
    (enough : (renderMembers (named members)).toList.length + 1 < fuel) :
    readMembers fuel ((renderMembers (named members)).toList ++ '\x7d' :: rest) =
      some (named members, rest) := by
  induction members generalizing fuel with
  | nil => exact absurd rfl filled
  | cons m members ih =>
    obtain ⟨name, j⟩ := m
    obtain ⟨first, later⟩ := List.forall_mem_cons.1 reads
    have first : Reads j := first
    obtain ⟨fuel, rfl⟩ : ∃ n, fuel = n + 1 := ⟨fuel - 1, by omega⟩
    by_cases more : members = []
    · subst more
      have written : (renderMembers (named [(name, j)])).toList =
          (writeText name).toList ++ ':' :: j.render.toList := by
        simp [named, renderMembers, writeString]
      rw [written, List.length_append, List.length_cons] at enough
      have read := first fuel ('\x7d' :: rest) (follows_cons _ (by decide)) (by omega)
      rw [written, List.append_assoc, List.cons_append, readMembers_name, read]
      rfl
    · have kept : named members ≠ [] := List.map_eq_nil_iff.not.2 more
      have written := toList_renderMembers_cons name j kept
      have here : named ((name, j) :: members) = (some name, j) :: named members := rfl
      simp only [here, written, List.length_append, List.length_cons] at enough
      have read := first fuel (',' :: ((renderMembers (named members)).toList ++ '\x7d' :: rest))
        (follows_cons _ (by decide)) (by omega)
      have others : readMembers fuel ((renderMembers (named members)).toList ++ '\x7d' :: rest) =
          some (named members, rest) := ih more later (by omega)
      rw [here, written, List.append_assoc, List.cons_append, List.append_assoc, List.cons_append,
        readMembers_name, read]
      change (readMembers fuel _ >>= _) = _
      rw [others]
      rfl

theorem readValue_brace (fuel : Nat) (rest : List Char) :
    readValue (fuel + 1) ('\x7b' :: '"' :: rest) = (do
      let (members, rest) ← readMembers fuel ('"' :: rest)
      return (.object members, rest)) := rfl

theorem begins_renderMembers {members : List (String × Json)} (filled : members ≠ []) :
    ∃ rest, (renderMembers (named members)).toList = '"' :: rest := by
  cases members with
  | nil => exact absurd rfl filled
  | cons m members =>
    obtain ⟨tail, written, -⟩ := readText_writeText m.1 []
    rw [List.append_nil] at written
    cases members with
    | nil => simp [named, renderMembers, writeString, written]
    | cons k members => simp [named, renderMembers, writeString, written]

theorem reads_record {members : List (String × Json)} (reads : ∀ m ∈ members, Reads m.2) :
    Reads (.record members) := by
  rintro (_ | fuel) rest follows enough
  · cases enough
  · have shown : (Json.record members).render.toList =
        '\x7b' :: ((renderMembers (named members)).toList ++ ['\x7d']) := by
      rw [Json.record, render]
      simp [named]
    rw [shown] at enough ⊢
    by_cases empty : members = []
    · subst empty
      rfl
    · simp only [List.length_cons, List.length_append, List.length_nil] at enough
      have read : readMembers fuel ((renderMembers (named members)).toList ++ '\x7d' :: rest) =
          some (named members, rest) := readMembers_render empty reads (by omega)
      obtain ⟨tail, written⟩ := begins_renderMembers empty
      rw [written] at read
      rw [List.cons_append, List.append_assoc, written, List.cons_append, readValue_brace]
      change (readMembers fuel ('"' :: tail ++ '\x7d' :: rest) >>= _) = _
      rw [read]
      rfl

theorem Plain.reads {j : Json} (plain : j.Plain) : Reads j := by
  induction plain with
  | null => exact reads_null
  | bool b => exact reads_bool b
  | integer i => exact reads_integer i
  | text s => exact reads_string s
  | array plain ih => exact reads_array plain ih
  | record _ ih => exact reads_record ih

/-- What is written is read as what it was. -/
theorem parse?_render {j : Json} (plain : j.Plain) : parse? j.render = some j := by
  have read := plain.reads (j.render.toList.length + 1) [] nofun (Nat.lt_succ_self _)
  rw [List.append_nil] at read
  rw [parse?]
  simp only [read, Option.bind_eq_bind, Option.bind_some]
  rfl

end Json

end ForeignCall
