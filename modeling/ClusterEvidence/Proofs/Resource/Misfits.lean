import ClusterEvidence.Proofs.Resource.Fields

/-!
# Fields of the wrong shape

A field that is there and no null has to fit its form (`Form.Fits`) : a text is a scalar, a number
or truth value a scalar that converts, a list a sequence, and labels a map of scalars. A manifest
is refused just if a field of it does not fit, its own or one of a part in it (`Misfit`), and then
the status names it (`decode_misfit`).

What is no map is never refused where fields are looked up in it, a section, an item of a list or
the end of a container : none of them is found there.
-/

namespace ClusterEvidence

open Yaml (Decoded convert toText)

variable {α : Type} {p r : Part} {d v : Yaml}

/-! ## What fits -/

namespace Form

/-- A value that a field of the form can be read from, apart from the parts in it. -/
def Fits : Form α → Yaml → Prop
  | text, v => v.text?.isSome
  | int32, v => (v.integer? Int32.minValue.toInt Int32.maxValue.toInt).isSome
  | int64, v => (v.integer? Int64.minValue.toInt Int64.maxValue.toInt).isSome
  | truth, v => v.boolean?.isSome
  | texts, v => ∃ items, v = .seq items ∧ ∀ x ∈ items, x.text?.isSome
  | labels, v => ∃ l, v = .map l ∧ ∀ e ∈ l, e.1.text?.isSome ∧ (e.2 = .null ∨ e.2.text?.isSome)
  | list _, v => ∃ items, v = .seq items
  | optional _, _ => True
  | mark, _ => True

/-- The part that is decoded from what is in a value of the form. -/
def part? : Form α → Option Part
  | list r => some r
  | optional r => some r
  | _ => none

/-- What it is decoded from. -/
def parts : Form α → Yaml → List Yaml
  | list _, .seq items => items
  | optional _, .map l => [.map l]
  | _, _ => []

theorem parts_null (f : Form α) : f.parts .null = [] := by
  cases f with
  | list r => rfl
  | optional r => rfl
  | _ => rfl

end Form

/-- A field that is there does not fit, in the part itself or in one that is in it. -/
inductive Misfit : Part → Yaml → Prop
  | field {p : Part} {d v : Yaml} (f : PartField p.Object) (hf : f ∈ p.fields)
      (hv : d.at? f.path = some v) (hnull : v ≠ .null) (hfit : ¬f.form.Fits v) : Misfit p d
  | inside {p r : Part} {d v x : Yaml} (f : PartField p.Object) (hf : f ∈ p.fields)
      (hv : d.at? f.path = some v) (hr : f.form.part? = some r) (hx : x ∈ f.form.parts v)
      (h : Misfit r x) : Misfit p d

/-! ## What cannot be read -/

theorem convert_eq_error {a : Option α} : (∃ e, convert a = .error e) ↔ ¬a.isSome := by
  cases a with
  | none => simp [convert]
  | some a => simp [convert]

/-- Only a scalar has a text. -/
theorem toText_eq_error : (∃ e, toText v = .error e) ↔ ¬v.text?.isSome :=
  convert_eq_error

theorem valueOr_of_ne (conv : Yaml → Decoded α) (default : α) (h : v ≠ .null) :
    Yaml.valueOr conv default (some v) = conv v := by
  cases v with
  | null => exact absurd rfl h
  | scalar s => rfl
  | seq items => rfl
  | map l => rfl

/-- An entry of a map of strings needs a text as its key, and a text or nothing as its value. -/
theorem labelEntry_eq_error {e : Yaml × Yaml} : (∃ m, Yaml.labelEntry e = .error m) ↔
    ¬(e.1.text?.isSome ∧ (e.2 = .null ∨ e.2.text?.isSome)) := by
  obtain ⟨key, v⟩ := e
  have hkey : ∀ s, (∃ m, ((toText key).bind fun k => .ok (k, s) : Decoded (Bytes × Bytes)) =
      .error m) ↔ ¬key.text?.isSome := fun s => by
    rw [← toText_eq_error]
    cases toText key with
    | error m => simp [Except.bind]
    | ok k => simp [Except.bind]
  cases v with
  | null => exact (hkey []).trans (not_congr (and_iff_left (.inl rfl)).symm)
  | scalar s => exact (hkey s).trans (not_congr (and_iff_left (.inr rfl)).symm)
  | seq items => simp [Yaml.labelEntry, toText, Yaml.text?, convert, bind, Except.bind]
  | map l => simp [Yaml.labelEntry, toText, Yaml.text?, convert, bind, Except.bind]

namespace Form

/-- A value cannot be read if it does not fit, or if a part in it cannot be decoded. -/
theorem read_eq_error (f : Form α) (hv : v ≠ .null) : (∃ e, f.read (some v) = .error e) ↔
    ¬f.Fits v ∨ ∃ r, f.part? = some r ∧ ∃ x ∈ f.parts v, ∃ e, r.decode x = .error e := by
  cases f with
  | text => simp [read, Fits, part?, valueOr_of_ne _ _ hv, toText_eq_error]
  | int32 =>
    simp [read, Fits, part?, valueOr_of_ne _ _ hv, Yaml.toInt32, map_eq_error, convert_eq_error]
  | int64 =>
    simp [read, Fits, part?, valueOr_of_ne _ _ hv, Yaml.toInt64, map_eq_error, convert_eq_error]
  | truth => simp [read, Fits, part?, valueOr_of_ne _ _ hv, Yaml.toBool, convert_eq_error]
  | texts =>
    cases v with
    | seq items => simp [read, Fits, part?, Yaml.texts, Yaml.itemsOr, mapM_eq_error, toText_eq_error]
    | null => exact absurd rfl hv
    | scalar s => simp [read, Fits, part?, Yaml.texts, Yaml.itemsOr]
    | map l => simp [read, Fits, part?, Yaml.texts, Yaml.itemsOr]
  | labels =>
    cases v with
    | map l => simp [read, Fits, part?, Labels.decode, map_eq_error, mapM_eq_error, labelEntry_eq_error]
    | null => exact absurd rfl hv
    | scalar s => simp [read, Fits, part?, Labels.decode]
    | seq items => simp [read, Fits, part?, Labels.decode]
  | list r =>
    cases v with
    | seq items => simp [read, Fits, part?, parts, Yaml.itemsOr, mapM_eq_error]
    | null => exact absurd rfl hv
    | scalar s => simp [read, Fits, Yaml.itemsOr]
    | map l => simp [read, Fits, Yaml.itemsOr]
  | optional r =>
    cases v with
    | map l => simp [read, Fits, part?, parts, map_eq_error]
    | null => exact absurd rfl hv
    | scalar s => simp [read, Fits, parts]
    | seq items => simp [read, Fits, parts]
  | mark => simp [read, Fits, part?]

end Form

/-! ## What is refused -/

/-- Parts are in parts of a higher rank only. -/
def Part.rank : Part → Nat
  | resource _ => 2
  | containerStatus => 1
  | _ => 0

/-- A part of a part is smaller. -/
theorem Part.rank_lt {f : PartField p.Object} (hf : f ∈ p.fields) (hr : f.form.part? = some r) :
    r.rank < p.rank := by
  have hall : p.fields.all fun f => (f.form.part?).all fun r => r.rank < p.rank := by
    cases p with
    | resource k => cases k <;> rfl
    | _ => rfl
  have hlt := List.all_eq_true.1 hall f hf
  rw [hr] at hlt
  exact of_decide_eq_true hlt

/-- A field that cannot be read is there. -/
theorem exists_of_read_error {f : PartField α} (h : ∃ e, f.read (some d) = .error e) :
    ∃ v, d.at? f.path = some v ∧ v ≠ .null ∧ ∃ e, f.form.read (some v) = .error e := by
  obtain ⟨e, he⟩ := h
  rw [PartField.read] at he
  cases hreach : reach f.path (some d) with
  | none =>
    rw [hreach, f.form.read_none] at he
    cases he
  | some v =>
    rw [hreach] at he
    have hnull : v ≠ .null := by
      rintro rfl
      obtain ⟨a, ha⟩ := f.form.read_null_isOk
      cases ha.symm.trans he
    exact ⟨v, at?_of_reach hreach hnull, hnull, e, he⟩

/-- What cannot be decoded has a value in it that does not fit. -/
theorem misfit_of_error {p : Part} {d : Yaml} (h : ∃ e, p.decode d = .error e) : Misfit p d := by
  obtain ⟨f, hf, hread⟩ := Part.decode_eq_error.1 h
  obtain ⟨v, hv, hnull, hread⟩ := exists_of_read_error hread
  rcases (f.form.read_eq_error hnull).1 hread with hfit | ⟨r, hr, x, hx, he⟩
  · exact .field f hf hv hnull hfit
  · exact .inside f hf hv hr hx (misfit_of_error he)
termination_by p.rank
decreasing_by exact Part.rank_lt hf hr

/-- A value that does not fit spoils the part it is in. -/
theorem Misfit.error (h : Misfit p d) : ∃ e, p.decode d = .error e := by
  induction h with
  | field f hf hv hnull hfit =>
    refine Part.decode_eq_error.2 ⟨f, hf, ?_⟩
    rw [PartField.read, reach_of_at? hv]
    exact (f.form.read_eq_error hnull).2 (.inl hfit)
  | @inside p r d v x f hf hv hr hx h ih =>
    have hnull : v ≠ .null := fun hv => by
      rw [hv, Form.parts_null] at hx
      cases hx
    refine Part.decode_eq_error.2 ⟨f, hf, ?_⟩
    rw [PartField.read, reach_of_at? hv]
    exact (f.form.read_eq_error hnull).2 (.inr ⟨r, hr, x, hx, ih⟩)

/-- A map is refused if something in it does not fit, with a status that names the object and what
is wrong. Otherwise it is decoded, whatever else stands in it. -/
theorem decode_misfit (k : Kind) (l : List (Yaml × Yaml)) :
    (Misfit (.resource k) (.map l) ∧
      ∃ m, decode k (.map l) = .error (mismatchStatus k (.map l) m)) ∨
    (¬Misfit (.resource k) (.map l) ∧ ∃ o, decode k (.map l) = .ok o) := by
  rw [decode_map]
  cases h : (Part.resource k).decode (.map l) with
  | error m => exact .inl ⟨misfit_of_error ⟨m, h⟩, m, rfl⟩
  | ok o =>
    refine .inr ⟨fun hmisfit => ?_, o, rfl⟩
    obtain ⟨m, hm⟩ := hmisfit.error
    cases h.symm.trans hm

/-- Labels that are no map. -/
example : decode .node (.map [(.scalar "metadata",
      .map [(.scalar "name", .scalar "worker-0"), (.scalar "labels", .seq [])])]) =
    .error ⟨.parseError, "Node 'worker-0': expected a map of strings"⟩ := by
  decide +kernel

/-- Metadata, a condition and the end of a container that are no maps, and are not missed. -/
theorem decode_without_maps :
    decode .node (.map [(.scalar "metadata", .scalar "worker-0")]) = .ok {} ∧
    decode .node (.map [(.scalar "status",
      .map [(.scalar "conditions", .seq [.scalar "Ready"])])]) = .ok { conditions := [{}] } ∧
    decode .pod (.map [(.scalar "status", .map [(.scalar "containerStatuses",
      .seq [.map [(.scalar "state", .map [(.scalar "terminated", .scalar "137")]),
        (.scalar "lastState", .map [])]])])]) = .ok { containers := [{}] } := by
  refine ⟨?_, ?_, ?_⟩
  · decide +kernel
  · decide +kernel
  · decide +kernel

end ClusterEvidence
