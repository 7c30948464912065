import ClusterEvidence.Json.Writer
import ClusterEvidence.Proofs.Json.RoundTrip

/-!
# Trees written call by call

`Writer.Wrote s w w'` says what the calls for one value do to a writer : behind a comma, if
one is due there, they add the text `s`, and they leave the containers that are open as they
were. A container writes its elements one after the other, so the commas in it come out as
those of a list (`foldl_wrote`); the calls of a walk over any tree therefore write the text of
the tree and nothing else (`tree_wrote`), and so do the calls for a whole member
(`fields_wrote`). What a new writer has written then is a text that reads back as the tree
(`tree_written`).
-/

namespace ClusterEvidence

namespace Json

/-! ## Siblings -/

/-- The text of a member. -/
def renderMember (m : Bytes × Json) : Bytes := quote m.1 ++ 0x3a :: m.2.render

/-- Between the items of an array stand commas. -/
theorem renderItems_eq_join (l : List Json) :
    renderItems l = Bytes.join [0x2c] (l.map render) := by
  induction l with
  | nil => rfl
  | cons j js ih =>
    cases js with
    | nil => simp [renderItems, Bytes.join]
    | cons j' js =>
      rw [renderItems, ih]
      simp [Bytes.join]

/-- Between the members of an object stand commas. -/
theorem renderMembers_eq_join (l : List (Bytes × Json)) :
    renderMembers l = Bytes.join [0x2c] (l.map renderMember) := by
  induction l with
  | nil => rfl
  | cons m ms ih =>
    obtain ⟨k, j⟩ := m
    cases ms with
    | nil => simp [renderMembers, renderMember, Bytes.join]
    | cons m ms =>
      rw [renderMembers, ih]
      simp [renderMember, Bytes.join]

namespace Writer

/-- The texts of elements that are written into a container, which had none before if `first`
holds. -/
def siblings (first : Bool) : List Bytes → Bytes
  | [] => []
  | s :: l => (if first then s else 0x2c :: s) ++ siblings false l

/-- The texts of all elements of a container are joined by commas. -/
theorem siblings_true (l : List Bytes) : siblings true l = Bytes.join [0x2c] l := by
  induction l with
  | nil => rfl
  | cons s l ih =>
    cases l with
    | nil => simp [siblings, Bytes.join]
    | cons s' l =>
      rw [Bytes.join, ← ih]
      simp [siblings]

/-! ## One value -/

variable {w w' : Writer} {s : Bytes}

@[simp] theorem text_put (s : Bytes) (w : Writer) : (w.put s).text = w.text ++ s := by
  simp [put, text]

@[simp] theorem fresh_put (s : Bytes) (w : Writer) : (w.put s).fresh = w.fresh := rfl

@[simp] theorem afterKey_put (s : Bytes) (w : Writer) : (w.put s).afterKey = w.afterKey := rfl

/-- No key waits any longer. -/
theorem afterKey_beforeValue (w : Writer) : w.beforeValue.afterKey = false := by
  unfold beforeValue
  split
  · rfl
  · next hkey =>
    have hkey : w.afterKey = false := by simpa using hkey
    split
    · exact hkey
    · exact hkey
    · exact hkey

/-- A value is written behind its key without a comma. -/
theorem beforeValue_of_afterKey (h : w.afterKey = true) :
    w.beforeValue = { w with afterKey := false } := by
  rw [beforeValue, if_pos h]

/-- In a container there is a comma before each element but the first. -/
theorem beforeValue_of_fresh {first : Bool} {rest : List Bool} (hkey : w.afterKey = false)
    (h : w.fresh = first :: rest) :
    w.beforeValue.fresh = false :: rest ∧
      ∀ s, w.beforeValue.text ++ s = w.text ++ if first then s else 0x2c :: s := by
  unfold beforeValue
  rw [if_neg (by simp [hkey]), h]
  cases first with
  | true => exact ⟨rfl, fun s => rfl⟩
  | false => exact ⟨h, fun s => by simp⟩

/-- A value with the text `s` was written. -/
structure Wrote (s : Bytes) (w w' : Writer) : Prop where
  text : w'.text = w.beforeValue.text ++ s
  fresh : w'.fresh = w.beforeValue.fresh
  afterKey : w'.afterKey = false

/-- A piece of text that is put where a value is due is written. -/
theorem wrote_put (s : Bytes) (w : Writer) : Wrote s w (w.beforeValue.put s) :=
  ⟨text_put s _, rfl, afterKey_beforeValue w⟩

/-- A key and its value are an element together. -/
theorem Wrote.behindKey {k : Bytes} {j : Json} (h : Wrote j.render (w.key k) w') :
    Wrote (renderMember (k, j)) w w' := by
  have hkey : (w.key k).beforeValue = { w.key k with afterKey := false } :=
    beforeValue_of_afterKey rfl
  refine ⟨?_, ?_, h.afterKey⟩
  · rw [h.text, hkey]
    show (w.beforeValue.put (quote k ++ [0x3a])).text ++ _ = _
    simp [renderMember]
  · rw [h.fresh, hkey]
    rfl

/-! ## Containers -/

/-- Elements that are written one after the other have commas between them, and nothing else. -/
theorem foldl_wrote {α : Type} {write : Writer → α → Writer} {render : α → Bytes} (l : List α)
    (h : ∀ a ∈ l, ∀ w, Wrote (render a) w (write w a)) {first : Bool} {rest : List Bool}
    (hkey : w.afterKey = false) (hfresh : w.fresh = first :: rest) :
    (l.foldl write w).text = w.text ++ siblings first (l.map render) ∧
      (l.foldl write w).fresh.tail = rest ∧ (l.foldl write w).afterKey = false := by
  induction l generalizing w first with
  | nil => exact ⟨by simp [siblings], by simp [hfresh], hkey⟩
  | cons a l ih =>
    rw [List.forall_mem_cons] at h
    have hwrote := h.1 w
    obtain ⟨hbefore, hcomma⟩ := beforeValue_of_fresh hkey hfresh
    obtain ⟨htext, hrest, hlast⟩ := ih h.2 hwrote.afterKey (hwrote.fresh.trans hbefore)
    refine ⟨?_, hrest, hlast⟩
    rw [List.foldl_cons, htext, hwrote.text, hcomma, List.map_cons, siblings, List.append_assoc]

/-- Elements between an opening and a closing bracket are a value together. -/
theorem wrote_between {α : Type} {write : Writer → α → Writer} {render : α → Bytes} (l : List α)
    (h : ∀ a ∈ l, ∀ w, Wrote (render a) w (write w a)) (opening closing : UInt8) (w : Writer) :
    Wrote (opening :: (Bytes.join [0x2c] (l.map render) ++ [closing])) w
      ((l.foldl write (w.openWith opening)).closeWith closing) := by
  have hkey : (w.openWith opening).afterKey = false := afterKey_beforeValue w
  obtain ⟨htext, hfresh, hlast⟩ := foldl_wrote l h hkey rfl
  refine ⟨?_, hfresh, hlast⟩
  show ((l.foldl write (w.openWith opening)).put [closing]).text = _
  rw [text_put, htext, siblings_true]
  show (w.beforeValue.put [opening]).text ++ _ ++ _ = _
  simp

theorem treeItems_eq_foldl : ∀ (l : List Json) (w : Writer),
    treeItems l w = l.foldl (fun w j => tree j w) w
  | [], _ => rfl
  | j :: js, w => treeItems_eq_foldl js (tree j w)

theorem treeMembers_eq_foldl : ∀ (l : List (Bytes × Json)) (w : Writer),
    treeMembers l w = l.foldl (fun w m => tree m.2 (w.key m.1)) w
  | [], _ => rfl
  | (k, j) :: ms, w => treeMembers_eq_foldl ms (tree j (w.key k))

/-! ## Trees -/

mutual

/-- The calls of a walk over a tree write its text, wherever a value may stand. -/
theorem tree_wrote : ∀ (j : Json) (w : Writer), Wrote j.render w (tree j w)
  | .null, w => wrote_put _ w
  | .bool true, w => wrote_put _ w
  | .bool false, w => wrote_put _ w
  | .num n, w => wrote_put _ w
  | .str s, w => wrote_put _ w
  | .arr items, w => by
    rw [tree, treeItems_eq_foldl, render, renderItems_eq_join]
    exact wrote_between items (items_wrote items) 0x5b 0x5d w
  | .obj members, w => by
    rw [tree, treeMembers_eq_foldl, render, renderMembers_eq_join]
    exact wrote_between members (fun m hm w => (members_wrote members m hm _).behindKey) 0x7b 0x7d w

/-- So do the calls for the items of an array. -/
theorem items_wrote : ∀ l : List Json, ∀ j ∈ l, ∀ w : Writer, Wrote j.render w (tree j w)
  | [] => by simp
  | j :: js => List.forall_mem_cons.2 ⟨tree_wrote j, items_wrote js⟩

theorem members_wrote : ∀ l : List (Bytes × Json), ∀ m ∈ l, ∀ w : Writer,
    Wrote m.2.render w (tree m.2 w)
  | [] => by simp
  | (_, j) :: ms => List.forall_mem_cons.2 ⟨tree_wrote j, members_wrote ms⟩

end

/-- The calls for a whole member write its text, as an element of the object. -/
theorem fields_wrote (k v : Bytes) (n : Int) (b : Bool) (w : Writer) :
    Wrote (renderMember (k, .str v)) w (w.field k v) ∧
      Wrote (renderMember (k, .num n)) w (w.fieldNumber k n) ∧
      Wrote (renderMember (k, .bool b)) w (w.fieldBool k b) :=
  ⟨(tree_wrote (.str v) _).behindKey, (tree_wrote (.num n) _).behindKey,
    (tree_wrote (.bool b) _).behindKey⟩

/-- An empty string leaves the member out, and no comma is written for it. -/
theorem fieldIfSet_wrote (k v : Bytes) (w : Writer) :
    (v = [] → w.fieldIfSet k v = w) ∧
      (v ≠ [] → Wrote (renderMember (k, .str v)) w (w.fieldIfSet k v)) := by
  refine ⟨fun h => by rw [h]; rfl, fun h => ?_⟩
  rw [fieldIfSet, if_neg (by simpa using h)]
  exact (tree_wrote (.str v) _).behindKey

/-- A walk over a tree on a new writer writes the text of the tree, closes every container it
opened and uses every key, and the text reads back as the tree. -/
theorem tree_written (j : Json) :
    (tree j {}).text = j.render ∧ (tree j {}).fresh = [] ∧ (tree j {}).afterKey = false ∧
      read? (tree j {}).text = some j := by
  obtain ⟨htext, hfresh, hkey⟩ := tree_wrote j {}
  have hnew : (tree j {}).text = j.render := htext
  exact ⟨hnew, hfresh, hkey, hnew ▸ read?_render j⟩

end Writer

end Json

end ClusterEvidence
