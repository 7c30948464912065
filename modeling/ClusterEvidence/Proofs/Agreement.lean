import ClusterEvidence.Surroundings
import Mathlib.Data.List.Forall2

/-!
# What actions keep, and where two runs agree

An action in `StateM σ` keeps `I` and yields `Q` if from every state with `I` it ends in
one, with a result that has `Q` (`Keeps`). Two actions, each in states of its own, agree
if related states lead to related states, with related results (`Agree`). Both pass
through binds, branches and traversals of a list, so what single queries and calls of a
recorder do carries over to whole batches.
-/

namespace ClusterEvidence

variable {σ τ α β γ δ : Type}

/-! ## One run -/

/-- From states with `I` the action ends in states with `I`, with results that have `Q`. -/
def Keeps (I : σ → Prop) (Q : α → Prop) (x : StateM σ α) : Prop :=
  ∀ s, I s → Q (x s).1 ∧ I (x s).2

namespace Keeps

variable {I : σ → Prop} {P : α → Prop} {Q : β → Prop}

theorem pure {a : α} (h : P a) : Keeps I P (pure a) := fun _ hs => ⟨h, hs⟩

/-- Two steps keep what each of them keeps. -/
theorem bind {x : StateM σ α} {f : α → StateM σ β} (hx : Keeps I P x)
    (hf : ∀ a, P a → Keeps I Q (f a)) : Keeps I Q (x >>= f) := by
  intro s hs
  obtain ⟨hp, hs'⟩ := hx s hs
  exact hf _ hp _ hs'

theorem mono {P' : α → Prop} {x : StateM σ α} (hx : Keeps I P x) (h : ∀ a, P a → P' a) :
    Keeps I P' x := fun s hs => (hx s hs).imp_left (h _)

/-- A traversal yields results that all have what each step yields. -/
theorem mapM {f : α → StateM σ β} {l : List α} (h : ∀ a ∈ l, Keeps I Q (f a)) :
    Keeps I (fun bs => ∀ b ∈ bs, Q b) (l.mapM f) := by
  induction l with
  | nil =>
    rw [List.mapM_nil]
    exact pure (by simp)
  | cons a l ih =>
    rw [List.forall_mem_cons] at h
    rw [List.mapM_cons]
    refine h.1.bind fun b hb => (ih h.2).bind fun bs hbs => ?_
    exact pure (List.forall_mem_cons.2 ⟨hb, hbs⟩)

/-- An action on the second half of a state leaves the first half alone. -/
theorem onSnd {κ : Type} {J : κ × σ → Prop} {x : StateM σ α}
    (hx : ∀ k, Keeps (fun s => J (k, s)) P x) : Keeps J P (Surroundings.onSnd (κ := κ) x) :=
  fun s hs => hx s.1 s.2 hs

/-- Whatever holds of the first half is kept. -/
theorem fst {κ : Type} {P : κ → Prop} (x : StateM σ α) :
    Keeps (fun s => P s.1) (fun _ => True) (Surroundings.onSnd (κ := κ) x) :=
  fun _ hs => ⟨trivial, hs⟩

end Keeps

/-- Looking around keeps `I`. -/
structure Surroundings.Steady (I : σ → Prop) (env : Surroundings σ) : Prop where
  cancelled : Keeps I (fun _ => True) env.cancelled
  note : ∀ l text, Keeps I (fun _ => True) (env.note l text)
  wallClock : Keeps I (fun _ => True) env.wallClock
  stopwatch : Keeps I (fun _ => True) env.stopwatch

/-- Surroundings are as steady beside anything else. -/
theorem Surroundings.Steady.beside {κ : Type} {J : κ × σ → Prop} {env : Surroundings σ}
    (h : ∀ k, env.Steady fun s => J (k, s)) : (env.beside κ).Steady J where
  cancelled := .onSnd fun k => (h k).cancelled
  note l text := .onSnd fun k => (h k).note l text
  wallClock := .onSnd fun k => (h k).wallClock
  stopwatch := .onSnd fun k => (h k).stopwatch

/-- Looking around leaves what stands beside alone. -/
theorem Surroundings.Steady.fst {κ : Type} (P : κ → Prop) (env : Surroundings σ) :
    (env.beside κ).Steady fun s => P s.1 :=
  ⟨.fst _, fun _ _ => .fst _, .fst _, .fst _⟩

/-! ## Two runs -/

/-- From related states the actions end in related states, with related results. -/
def Agree (R : σ → τ → Prop) (Q : α → β → Prop) (x : StateM σ α) (y : StateM τ β) : Prop :=
  ∀ s t, R s t → Q (x s).1 (y t).1 ∧ R (x s).2 (y t).2

namespace Agree

variable {R : σ → τ → Prop} {P : α → β → Prop} {Q : γ → δ → Prop}

theorem pure {a : α} {b : β} (h : P a b) : Agree R P (pure a) (pure b) :=
  fun _ _ hr => ⟨h, hr⟩

/-- Steps that agree, one after the other, agree. -/
theorem bind {x : StateM σ α} {y : StateM τ β} {f : α → StateM σ γ} {g : β → StateM τ δ}
    (hx : Agree R P x y) (hf : ∀ a b, P a b → Agree R Q (f a) (g b)) :
    Agree R Q (x >>= f) (y >>= g) := by
  intro s t hr
  obtain ⟨hp, hr'⟩ := hx s t hr
  exact hf _ _ hp _ _ hr'

/-- Results that are equal are followed by actions that may assume it. -/
theorem bind_eq {x : StateM σ α} {y : StateM τ α} {f : α → StateM σ γ} {g : α → StateM τ δ}
    (hx : Agree R Eq x y) (hf : ∀ a, Agree R Q (f a) (g a)) : Agree R Q (x >>= f) (y >>= g) :=
  hx.bind fun _ _ h => h ▸ hf _

theorem mono {P' : α → β → Prop} {x : StateM σ α} {y : StateM τ β} (hx : Agree R P x y)
    (h : ∀ a b, P a b → P' a b) : Agree R P' x y := fun s t hr => (hx s t hr).imp_left (h _ _)

/-- Traversals of lists that correspond step by step yield lists that do. -/
theorem mapM {f : α → StateM σ γ} {g : β → StateM τ δ} {l : List α} {m : List β}
    (h : List.Forall₂ (fun a b => Agree R Q (f a) (g b)) l m) :
    Agree R (List.Forall₂ Q) (l.mapM f) (m.mapM g) := by
  induction h with
  | nil =>
    rw [List.mapM_nil, List.mapM_nil]
    exact pure .nil
  | cons h _ ih =>
    rw [List.mapM_cons, List.mapM_cons]
    exact h.bind fun _ _ hcd => ih.bind fun _ _ hl => pure (.cons hcd hl)

/-- Actions on the second halves of states agree when the first halves are related too. -/
theorem onSnd {κ μ : Type} {K : κ → μ → Prop} {x : StateM σ α} {y : StateM τ β}
    (hx : Agree R P x y) :
    Agree (fun s t => K s.1 t.1 ∧ R s.2 t.2) P (Surroundings.onSnd (κ := κ) x)
      (Surroundings.onSnd (κ := μ) y) := by
  intro s t hr
  obtain ⟨hp, hr'⟩ := hx s.2 t.2 hr.2
  exact ⟨hp, hr.1, hr'⟩

end Agree

end ClusterEvidence
