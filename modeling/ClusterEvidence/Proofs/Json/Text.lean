import ClusterEvidence.Json.Reader
import ClusterEvidence.Proofs.Bytes

/-!
# Texts of JSON trees

A string between quotes reads back as it was (`Reader.string?_quote`), so the texts of
different strings differ, whatever follows them (`quote_append_inj`). No text of a tree
has a newline, not even inside a string (`newline_notMem_render`) : trees can be written
one on each line.
-/

namespace ClusterEvidence

namespace Json

/-! ## Strings read back -/

namespace Reader

/-- The escape of a control byte gives its value in hexadecimal digits. -/
theorem hexWord?_hex {b : UInt8} (hb : b < 0x20) :
    Bytes.hexWord? 0x30 0x30 (Bytes.hexDigit (b >>> 4)) (Bytes.hexDigit (b &&& 0xf)) =
      some b.toNat ∧ Bytes.utf8 b.toNat = [b] := by
  refine Bytes.of_toNat_lt (P := fun b => Bytes.hexWord? 0x30 0x30 (Bytes.hexDigit (b >>> 4))
    (Bytes.hexDigit (b &&& 0xf)) = some b.toNat ∧ Bytes.utf8 b.toNat = [b]) (k := 32) ?_
    (UInt8.lt_iff_toNat_lt.1 hb)
  decide +kernel

/-- What is written for a byte is read as that byte. -/
theorem string?_escapeByte (b : UInt8) (rest : Bytes) :
    string? (escapeByte b ++ rest) = (string? rest).map fun p => (b :: p.1, p.2) := by
  unfold escapeByte
  split
  · subst b; rfl
  split
  · subst b; rfl
  split
  · subst b; rfl
  split
  · subst b; rfl
  split
  · subst b; rfl
  split
  · subst b; rfl
  split
  · subst b; rfl
  split
  · next hb =>
    obtain ⟨hword, hutf8⟩ := hexWord?_hex hb
    have hlt : b.toNat < 32 := UInt8.lt_iff_toNat_lt.1 hb
    have hlow : isLowSurrogate b.toNat = false := by simp [isLowSurrogate]; omega
    have hhigh : isHighSurrogate b.toNat = false := by simp [isHighSurrogate]; omega
    rw [string?.eq_def]
    simp only [Bytes.hex, List.cons_append, List.nil_append]
    rw [if_neg (by decide), if_neg (by decide)]
    simp only [show escaped? 0x75 = none from rfl, if_true, hword, hlow, hhigh, hutf8,
      Bool.false_eq_true, if_false, List.singleton_append]
  · next hquote hslash _ _ _ _ _ hcontrol =>
    rw [List.singleton_append, string?.eq_def]
    simp only
    rw [if_neg hquote, if_neg hcontrol, if_neg hslash]

/-- A string reads back up to its closing quote. -/
theorem string?_escape (s rest : Bytes) : string? (escape s ++ 0x22 :: rest) = some (s, rest) := by
  induction s with
  | nil =>
    rw [string?.eq_def]
    rfl
  | cons b s ih =>
    rw [escape, List.flatMap_cons, List.append_assoc, string?_escapeByte]
    rw [escape] at ih
    rw [ih]
    rfl

end Reader

/-- Quoted strings are told apart whatever follows them. -/
theorem quote_append_inj {s s' t t' : Bytes} (h : quote s ++ t = quote s' ++ t') :
    s = s' ∧ t = t' := by
  have hrest : escape s ++ 0x22 :: t = escape s' ++ 0x22 :: t' := by
    simpa [quote] using h
  have hread := congrArg Reader.string? hrest
  rw [Reader.string?_escape, Reader.string?_escape, Option.some.injEq, Prod.mk.injEq] at hread
  exact hread

/-! ## No newlines -/

theorem newline_notMem_escapeByte (b : UInt8) : (0x0a : UInt8) ∉ escapeByte b := by
  unfold escapeByte
  split
  · decide
  split
  · decide
  split
  · decide
  split
  · decide
  split
  · decide
  split
  · decide
  split
  · decide
  split
  · have hhex : (0x0a : UInt8) ∉ Bytes.hex b := fun h =>
      Bytes.of_mem_hex (P := fun d => d ≠ 0x0a) (by decide +kernel) h rfl
    simp [hhex]
  · next hn _ _ _ =>
    rw [List.mem_singleton]
    exact Ne.symm hn

/-- A line break in a string is escaped. -/
theorem newline_notMem_quote (s : Bytes) : (0x0a : UInt8) ∉ quote s := by
  have hescape : (0x0a : UInt8) ∉ escape s := by
    rw [escape, List.mem_flatMap]
    rintro ⟨b, -, hb⟩
    exact newline_notMem_escapeByte b hb
  simp [quote, hescape]

mutual

/-- No text of a tree has a newline. -/
theorem newline_notMem_render : ∀ j : Json, (0x0a : UInt8) ∉ j.render
  | null => by decide
  | bool true => by decide
  | bool false => by decide
  | num n => Bytes.notMem_decimal (by decide) (by decide) n
  | str s => newline_notMem_quote s
  | arr items => by simp [render, newline_notMem_renderItems items]
  | obj members => by simp [render, newline_notMem_renderMembers members]

theorem newline_notMem_renderItems : ∀ l : List Json, (0x0a : UInt8) ∉ renderItems l
  | [] => by decide
  | [j] => newline_notMem_render j
  | j :: j' :: js => by
    simp [renderItems, newline_notMem_render j, newline_notMem_renderItems (j' :: js)]

theorem newline_notMem_renderMembers :
    ∀ l : List (Bytes × Json), (0x0a : UInt8) ∉ renderMembers l
  | [] => by decide
  | [(k, j)] => by simp [renderMembers, newline_notMem_quote k, newline_notMem_render j]
  | (k, j) :: m :: ms => by
    simp [renderMembers, newline_notMem_quote k, newline_notMem_render j,
      newline_notMem_renderMembers (m :: ms)]

end

end Json

end ClusterEvidence
