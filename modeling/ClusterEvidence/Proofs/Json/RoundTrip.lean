import ClusterEvidence.Proofs.Json.Text

/-!
# Trees read back from their texts

The text of a tree reads back as the tree (`read?_render`) : all its strings with any bytes,
all its numbers, and its items and members in order. A reader needs no more steps than the
budget that `read?` gives it, four for each byte of the text (`steps_lt`).
-/

namespace ClusterEvidence

namespace Json

/-! ## Steps -/

mutual

/-- As many steps are enough to read the text of a tree. -/
def steps : Json → Nat
  | arr items => 2 + itemSteps items
  | obj members => 2 + memberSteps members
  | _ => 1

/-- As many are enough for the items of an array. -/
def itemSteps : List Json → Nat
  | [] => 0
  | j :: js => 1 + j.steps + itemSteps js

/-- As many are enough for the members of an object. -/
def memberSteps : List (Bytes × Json) → Nat
  | [] => 0
  | (_, j) :: ms => 2 + j.steps + memberSteps ms

end

theorem length_decimal_pos (n : Int) : 0 < (Bytes.decimal n).length := by
  cases n with
  | ofNat n => exact List.length_pos_iff.2 (Bytes.digits_ne_nil n)
  | negSucc n => simp [Bytes.decimal]

mutual

/-- The budget is enough. -/
theorem steps_lt : ∀ j : Json, j.steps < 4 * j.render.length
  | null => by decide
  | bool true => by decide
  | bool false => by decide
  | num n => by
    have := length_decimal_pos n
    simp only [steps, render]
    omega
  | str s => by
    simp only [steps, render, quote, List.length_cons]
    omega
  | arr items => by
    have := itemSteps_le items
    simp only [steps, render, List.length_cons, List.length_append, List.length_nil]
    omega
  | obj members => by
    have := memberSteps_le members
    simp only [steps, render, List.length_cons, List.length_append, List.length_nil]
    omega

theorem itemSteps_le : ∀ l : List Json, itemSteps l ≤ 4 * (renderItems l).length
  | [] => by decide
  | [j] => by
    have := steps_lt j
    simp only [itemSteps, renderItems]
    omega
  | j :: j' :: js => by
    have := steps_lt j
    have := itemSteps_le (j' :: js)
    rw [itemSteps, renderItems, List.length_append, List.length_cons]
    omega

theorem memberSteps_le : ∀ l : List (Bytes × Json), memberSteps l ≤ 4 * (renderMembers l).length
  | [] => by decide
  | [(k, j)] => by
    have := steps_lt j
    simp only [memberSteps, renderMembers, List.length_append, List.length_cons]
    omega
  | (k, j) :: m :: ms => by
    have := steps_lt j
    have := memberSteps_le (m :: ms)
    rw [memberSteps, renderMembers, List.length_append, List.length_cons, List.length_append,
      List.length_cons]
    omega

end

namespace Reader

/-! ## Numbers -/

/-- Nothing follows that a number could go on with. -/
def Ends (rest : Bytes) : Prop :=
  (∀ b ∈ rest.head?, Bytes.isDigit b = false) ∧ isFractional rest = false

theorem ends_nil : Ends [] := ⟨by simp, rfl⟩

theorem ends_cons {b : UInt8} (hb : b = 0x2c ∨ b = 0x5d ∨ b = 0x7d) (rest : Bytes) :
    Ends (b :: rest) := by
  rcases hb with rfl | rfl | rfl
  · exact ⟨by simp; decide, rfl⟩
  · exact ⟨by simp; decide, rfl⟩
  · exact ⟨by simp; decide, rfl⟩

theorem natural?_digits (n : Nat) {rest : Bytes} (h : Ends rest) :
    natural? (Bytes.digits n ++ rest) = some (n, rest) := by
  obtain ⟨hdigit, hfraction⟩ := h
  have hall : ∀ b ∈ Bytes.digits n, Bytes.isDigit b = true := fun b hb =>
    Bytes.isDigit_of_mem_digits hb
  have hstop : rest.takeWhile Bytes.isDigit = [] ∧ rest.dropWhile Bytes.isDigit = rest := by
    cases rest with
    | nil => exact ⟨rfl, rfl⟩
    | cons b rest =>
      have hb : ¬ Bytes.isDigit b = true := by simp [hdigit b rfl]
      exact ⟨List.takeWhile_cons_of_neg hb, List.dropWhile_cons_of_neg hb⟩
  have hzeros : ¬ ((Bytes.digits n).head? = some 0x30 ∧ Bytes.digits n ≠ [0x30]) := by
    obtain ⟨d, more, hdigits, hd, hzero⟩ := Bytes.digits_cons n
    rintro ⟨hhead, hne⟩
    rw [hdigits, List.head?_cons, Option.some.injEq] at hhead
    have hall : ∀ d < 10, UInt8.ofNat (0x30 + d) = 0x30 → d = 0 := by decide
    obtain rfl := hzero (hall d hd hhead)
    exact hne rfl
  unfold natural?
  dsimp only
  rw [List.takeWhile_append_of_pos hall, List.dropWhile_append_of_pos hall, hstop.1, hstop.2,
    List.append_nil, if_neg (not_or.2 ⟨hzeros, by simp [hfraction]⟩), Bytes.natural?_digits]
  rfl

/-- A number is read up to where its decimals end. -/
theorem integer?_decimal (n : Int) {rest : Bytes} (h : Ends rest) :
    integer? (Bytes.decimal n ++ rest) = some (n, rest) := by
  cases n with
  | ofNat n =>
    obtain ⟨d, more, hdigits, hd, -⟩ := Bytes.digits_cons n
    have hminus : ∀ d < 10, UInt8.ofNat (0x30 + d) ≠ 0x2d := by decide
    have hread := natural?_digits n h
    rw [hdigits, List.cons_append] at hread
    rw [Bytes.decimal, hdigits, List.cons_append, integer?, if_neg (hminus d hd), hread]
    rfl
  | negSucc n =>
    rw [Bytes.decimal, List.cons_append, integer?, if_pos rfl, natural?_digits (n + 1) h]
    rfl

/-! ## How texts start -/

theorem skipBlanks_cons {b : UInt8} (h : isBlank b = false) (rest : Bytes) :
    skipBlanks (b :: rest) = b :: rest :=
  List.dropWhile_cons_of_neg (by simp [h])

/-- The bytes that the text of an integer may start with. -/
def numberStarts : Bytes := "-0123456789"

theorem decimal_cons (n : Int) : ∃ b rest, Bytes.decimal n = b :: rest ∧ b ∈ numberStarts := by
  have hdigit : ∀ d < 10, UInt8.ofNat (0x30 + d) ∈ numberStarts := by decide
  cases n with
  | ofNat n =>
    obtain ⟨d, rest, hdigits, hd, -⟩ := Bytes.digits_cons n
    exact ⟨_, rest, hdigits, hdigit d hd⟩
  | negSucc n => exact ⟨0x2d, _, rfl, by decide⟩

/-- The text of a tree starts with no blank, and with no bracket that closes. -/
theorem render_cons (j : Json) : ∃ b rest, j.render = b :: rest ∧ isBlank b = false ∧
    b ≠ 0x5d ∧ b ≠ 0x7d := by
  cases j with
  | null => exact ⟨0x6e, _, rfl, by decide⟩
  | bool b =>
    cases b with
    | true => exact ⟨0x74, _, rfl, by decide⟩
    | false => exact ⟨0x66, _, rfl, by decide⟩
  | num n =>
    obtain ⟨b, rest, hdecimal, hb⟩ := decimal_cons n
    have hall : ∀ b ∈ numberStarts, isBlank b = false ∧ b ≠ 0x5d ∧ b ≠ 0x7d := by
      decide +kernel
    exact ⟨b, rest, hdecimal, hall b hb⟩
  | str s => exact ⟨0x22, _, rfl, by decide⟩
  | arr items => exact ⟨0x5b, _, rfl, by decide⟩
  | obj members => exact ⟨0x7b, _, rfl, by decide⟩

/-! ## Values -/

/-- What starts like a number is read as one. -/
theorem value_number (n : Nat) {b : UInt8} (hb : b ∈ numberStarts) (s : Bytes) :
    value (n + 1) (b :: s) = (integer? (b :: s)).map fun (i, rest) => (num i, rest) := by
  have hall : ∀ b ∈ numberStarts, isBlank b = false ∧ b ≠ 0x22 ∧ b ≠ 0x5b ∧ b ≠ 0x7b ∧
      b ≠ 0x6e ∧ b ≠ 0x74 ∧ b ≠ 0x66 := by decide +kernel
  obtain ⟨hblank, h₁, h₂, h₃, h₄, h₅, h₆⟩ := hall b hb
  rw [value, skipBlanks_cons hblank]
  simp only [h₁, h₂, h₃, h₄, h₅, h₆, if_false]

/-- A string that was quoted is read back, with the rest of the text left. -/
theorem value_quote (n : Nat) (s rest : Bytes) :
    value (n + 1) (quote s ++ rest) = some (str s, rest) := by
  rw [quote, List.cons_append, List.append_assoc, List.singleton_append, value,
    skipBlanks_cons (by decide)]
  simp only [if_true, string?_escape, Option.map_some]

/-- Behind an opening bracket the items of an array are read. -/
theorem value_bracket (n : Nat) (s : Bytes) :
    value (n + 1) (0x5b :: s) = (array n s).map fun (l, rest) => (arr l, rest) :=
  rfl

/-- Behind an opening brace the members of an object are read. -/
theorem value_brace (n : Nat) (s : Bytes) :
    value (n + 1) (0x7b :: s) = (object n s).map fun (l, rest) => (obj l, rest) :=
  rfl

/-- A text that starts like one of a tree is not read as the end of an array. -/
theorem array_items (n : Nat) (j : Json) (s : Bytes) :
    array (n + 1) (j.render ++ s) = items n (j.render ++ s) := by
  obtain ⟨b, rest, hrender, hblank, hclose, -⟩ := render_cons j
  rw [hrender, List.cons_append, array, skipBlanks_cons hblank]
  split
  · next heq => exact absurd (List.cons.inj heq).1 hclose
  · rfl

/-- Nor is a text that starts with a key read as the end of an object. -/
theorem object_members (n : Nat) (k s : Bytes) :
    object (n + 1) (quote k ++ s) = members n (quote k ++ s) := by
  rw [quote, List.cons_append, object, skipBlanks_cons (by decide)]
  rfl

/-- A member is read as its key and the value behind the colon. -/
theorem pair_quote (n : Nat) (k s : Bytes) :
    pair (n + 1) (quote k ++ 0x3a :: s) = (value n s).map fun (j, rest) => ((k, j), rest) := by
  rw [quote, List.cons_append, List.append_assoc, List.singleton_append, pair,
    skipBlanks_cons (by decide)]
  simp only [string?_escape, Option.bind_eq_bind, Option.bind_some, skipBlanks_cons
    (show isBlank 0x3a = false by decide)]
  cases value n s with
  | none => rfl
  | some r => rfl

theorem renderItems_cons (j : Json) (js : List Json) : ∃ s, renderItems (j :: js) = j.render ++ s := by
  cases js with
  | nil => exact ⟨[], by rw [renderItems, List.append_nil]⟩
  | cons j' js => exact ⟨_, renderItems.eq_3 j j' js⟩

theorem renderMembers_cons (k : Bytes) (j : Json) (ms : List (Bytes × Json)) :
    ∃ s, renderMembers ((k, j) :: ms) = quote k ++ 0x3a :: s := by
  cases ms with
  | nil => exact ⟨_, renderMembers.eq_2 k j⟩
  | cons m ms => exact ⟨_, renderMembers.eq_3 k j m ms⟩

mutual

/-- A tree is read up to its end. -/
theorem value_render : ∀ (j : Json) (n : Nat) (rest : Bytes), j.steps ≤ n → Ends rest →
    value n (j.render ++ rest) = some (j, rest)
  | null, n + 1, rest, _, _ => rfl
  | bool true, n + 1, rest, _, _ => rfl
  | bool false, n + 1, rest, _, _ => rfl
  | num i, n + 1, rest, _, hrest => by
    obtain ⟨b, s, hdecimal, hb⟩ := decimal_cons i
    have hread := integer?_decimal i hrest
    rw [hdecimal, List.cons_append] at hread
    rw [render, hdecimal, List.cons_append, value_number n hb, hread]
    rfl
  | str s, n + 1, rest, _, _ => value_quote n s rest
  | arr [], n + 2, rest, _, _ => rfl
  | arr (j :: js), n, rest, hn, _ => by
    rw [steps] at hn
    obtain ⟨n, rfl⟩ : ∃ m, n = m + 2 := ⟨n - 2, by omega⟩
    have hitems := items_render (j :: js) n rest (by simp) (by omega)
    obtain ⟨s, hs⟩ := renderItems_cons j js
    rw [hs, List.append_assoc] at hitems
    rw [render, List.cons_append, List.append_assoc, List.singleton_append, value_bracket, hs,
      List.append_assoc, array_items, hitems]
    rfl
  | obj [], n + 2, rest, _, _ => rfl
  | obj ((k, j) :: ms), n, rest, hn, _ => by
    rw [steps] at hn
    obtain ⟨n, rfl⟩ : ∃ m, n = m + 2 := ⟨n - 2, by omega⟩
    have hmembers := members_render ((k, j) :: ms) n rest (by simp) (by omega)
    obtain ⟨s, hs⟩ := renderMembers_cons k j ms
    rw [hs, List.append_assoc] at hmembers
    rw [render, List.cons_append, List.append_assoc, List.singleton_append, value_brace, hs,
      List.append_assoc, object_members, hmembers]
    rfl

/-- Items are read up to the bracket behind them. -/
theorem items_render : ∀ (l : List Json) (n : Nat) (rest : Bytes), l ≠ [] → itemSteps l ≤ n →
    items n (renderItems l ++ 0x5d :: rest) = some (l, rest)
  | [], _, _, hne, _ => absurd rfl hne
  | [j], n, rest, _, hn => by
    rw [itemSteps] at hn
    obtain ⟨n, rfl⟩ : ∃ m, n = m + 1 := ⟨n - 1, by omega⟩
    have hj := value_render j n _ (by omega) (ends_cons (.inr (.inl rfl)) rest)
    rw [renderItems, items, hj]
    rfl
  | j :: j' :: js, n, rest, _, hn => by
    rw [itemSteps] at hn
    obtain ⟨n, rfl⟩ : ∃ m, n = m + 1 := ⟨n - 1, by omega⟩
    have hj := value_render j n _ (by omega)
      (ends_cons (.inl rfl) (renderItems (j' :: js) ++ 0x5d :: rest))
    have hjs := items_render (j' :: js) n rest (by simp) (by omega)
    rw [renderItems, List.append_assoc, List.cons_append, items, hj]
    simp only [Option.bind_eq_bind, Option.bind_some, skipBlanks_cons
      (show isBlank 0x2c = false by decide), hjs]

/-- Members are read up to the brace behind them. -/
theorem members_render : ∀ (l : List (Bytes × Json)) (n : Nat) (rest : Bytes), l ≠ [] →
    memberSteps l ≤ n → members n (renderMembers l ++ 0x7d :: rest) = some (l, rest)
  | [], _, _, hne, _ => absurd rfl hne
  | [(k, j)], n, rest, _, hn => by
    rw [memberSteps] at hn
    obtain ⟨n, rfl⟩ : ∃ m, n = m + 2 := ⟨n - 2, by omega⟩
    have hj := value_render j n _ (by omega) (ends_cons (.inr (.inr rfl)) rest)
    rw [renderMembers, List.append_assoc, List.cons_append, members, pair_quote, hj]
    rfl
  | (k, j) :: m :: ms, n, rest, _, hn => by
    rw [memberSteps] at hn
    obtain ⟨n, rfl⟩ : ∃ m, n = m + 2 := ⟨n - 2, by omega⟩
    have hj := value_render j n _ (by omega)
      (ends_cons (.inl rfl) (renderMembers (m :: ms) ++ 0x7d :: rest))
    have hms := members_render (m :: ms) (n + 1) rest (by simp) (by omega)
    rw [renderMembers, List.append_assoc, List.cons_append, List.append_assoc, List.cons_append,
      members, pair_quote, hj]
    simp only [Option.bind_eq_bind, Option.bind_some, Option.map_some, skipBlanks_cons
      (show isBlank 0x2c = false by decide), hms]

end

end Reader

/-- The text of a tree reads back as the tree. -/
theorem read?_render (j : Json) : read? j.render = some j := by
  have hsteps := steps_lt j
  have hread := Reader.value_render j (4 * j.render.length + 1) [] (by omega) Reader.ends_nil
  rw [List.append_nil] at hread
  rw [read?, hread]
  rfl

end Json

end ClusterEvidence
