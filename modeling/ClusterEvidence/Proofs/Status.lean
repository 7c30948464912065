import ClusterEvidence.Status

/-!
# Codes and the first failure

A code stands for its number. `Code.ofNumber` gives a code for every number, and a code is the one
of its number unless it hides a listed number as another one (`Code.ofNumber_number_iff`). The
names tell the listed codes apart, and all others share one (`Code.name_eq_iff`).

Steps that are taken one after the other stop at the first that fails. `Status.firstFailure_split`
cuts a list of statuses there : those before are OK and are counted by `passed`, and nothing behind
has a say. So the failure of two lists in a row is that of the first one, if there is one
(`Status.firstFailure_append`). A result has a status as well as an answer to being read, and the
two together say all about it (`Fetched.eq_of_status_of_read`).
-/

namespace ClusterEvidence

namespace Code

/-- Every number has a code. -/
theorem number_ofNumber (n : Int) : (ofNumber n).number = n := by
  unfold ofNumber
  repeat' split
  all_goals first | exact Eq.symm ‹_› | rfl

/-- A number that is not listed has a code of its own. -/
theorem ofNumber_eq_other {n : Int} (h : n < 0 ∨ 7 < n) : ofNumber n = other n := by
  unfold ofNumber
  repeat rw [if_neg (by omega)]

/-- A code is that of its number, unless it stands for a listed number and is not the code that is
listed. -/
theorem ofNumber_number_iff (c : Code) :
    ofNumber c.number = c ↔ ∀ n, c = other n → n < 0 ∨ 7 < n := by
  constructor
  · rintro h n rfl
    refine Decidable.byContradiction fun hlisted => ?_
    have hcases : n = 0 ∨ n = 1 ∨ n = 2 ∨ n = 3 ∨ n = 4 ∨ n = 5 ∨ n = 6 ∨ n = 7 := by omega
    rcases hcases with rfl | rfl | rfl | rfl | rfl | rfl | rfl | rfl <;> cases h
  · intro h
    cases c
    case other n => exact ofNumber_eq_other (h n rfl)
    all_goals rfl

/-- A code that is not listed. -/
def IsOther (c : Code) : Prop := ∃ n, c = other n

/-- Codes of one name are the same, or neither is listed. -/
theorem name_eq_iff {c c' : Code} : c.name = c'.name ↔ c = c' ∨ c.IsOther ∧ c'.IsOther := by
  constructor
  · intro h
    cases c <;> cases c' <;> dsimp only [name] at h
    all_goals first
      | exact .inl rfl
      | exact .inr ⟨⟨_, rfl⟩, ⟨_, rfl⟩⟩
      | exact absurd h (by decide)
  · rintro (rfl | ⟨⟨n, rfl⟩, ⟨m, rfl⟩⟩) <;> rfl

end Code

namespace Status

variable {l l' : List Status} {st : Status}

/-- A failure is not looked for among statuses that are OK. -/
theorem firstFailure_append_of_isOk (h : ∀ s ∈ l, s.isOk = true) (l' : List Status) :
    firstFailure (l ++ l') = firstFailure l' ∧ passed (l ++ l') = l.length + passed l' := by
  have hnone : l.find? (fun s => !s.isOk) = none :=
    List.find?_eq_none.2 fun s hs => by simp [h s hs]
  constructor
  · rw [firstFailure, List.find?_append, hnone, Option.none_or, firstFailure]
  · rw [passed, List.takeWhile_append_of_pos h, List.length_append, passed]

/-- A failure behind statuses that are OK is the first, whatever follows. -/
theorem firstFailure_of_split (h : ∀ s ∈ l, s.isOk = true) (hst : st.isOk = false) :
    firstFailure (l ++ st :: l') = st ∧ passed (l ++ st :: l') = l.length := by
  obtain ⟨hfailure, hpassed⟩ := firstFailure_append_of_isOk h (st :: l')
  rw [hfailure, hpassed]
  simp [firstFailure, passed, hst]

/-- All statuses are OK, or one is the first that is not, and those before it are counted. -/
theorem firstFailure_split (l : List Status) :
    ((∀ s ∈ l, s.isOk = true) ∧ firstFailure l = ok ∧ passed l = l.length) ∨
      ∃ before st after, l = before ++ st :: after ∧ (∀ s ∈ before, s.isOk = true) ∧
        st.isOk = false ∧ firstFailure l = st ∧ passed l = before.length := by
  by_cases h : ∀ s ∈ l, s.isOk = true
  · have hall := firstFailure_append_of_isOk h []
    rw [List.append_nil] at hall
    exact .inl ⟨h, hall⟩
  · obtain ⟨st, hst⟩ : ∃ st, l.find? (fun s => !s.isOk) = some st := by
      rw [← Option.isSome_iff_exists, List.find?_isSome]
      simpa using h
    obtain ⟨hfailed, before, after, rfl, hbefore⟩ := List.find?_eq_some_iff_append.1 hst
    have hok : ∀ s ∈ before, s.isOk = true := fun s hs => by simpa using hbefore s hs
    have hno : st.isOk = false := by simpa using hfailed
    exact .inr ⟨before, st, after, rfl, hok, hno, firstFailure_of_split hok hno⟩

/-- There is a failure just if a status is not OK. -/
theorem isOk_firstFailure_iff : (firstFailure l).isOk = true ↔ ∀ s ∈ l, s.isOk = true := by
  rcases firstFailure_split l with ⟨h, hok, -⟩ | ⟨before, st, after, rfl, -, hst, hfirst, -⟩
  · exact iff_of_true (by rw [hok]; rfl) h
  · refine iff_of_false (by rw [hfirst, hst]; simp) fun h => ?_
    rw [h st (by simp)] at hst
    cases hst

/-- The failure of the first list is that of both, and if it has none, that of the second is. -/
theorem firstFailure_append (l l' : List Status) :
    firstFailure (l ++ l') = if (firstFailure l).isOk then firstFailure l' else firstFailure l := by
  rcases firstFailure_split l with ⟨h, hok, -⟩ | ⟨before, st, after, rfl, h, hst, hfirst, -⟩
  · rw [if_pos (isOk_firstFailure_iff.2 h), (firstFailure_append_of_isOk h l').1]
  · rw [if_neg (by rw [hfirst, hst]; simp), hfirst, List.append_assoc, List.cons_append]
    exact (firstFailure_of_split h hst).1

end Status

/-- Two results with one status that answer alike when they are read are the same. -/
theorem Fetched.eq_of_status_of_read {α : Type} {r r' : Fetched α} (hstatus : r.status = r'.status)
    (hread : r.read = r'.read) : r = r' := by
  cases r with
  | ok a =>
    cases r' with
    | ok a' => exact congrArg Except.ok (Except.ok.inj hread)
    | error st => cases hread
  | error st =>
    cases r' with
    | ok a => cases hread
    | error st' => exact congrArg Except.error hstatus

end ClusterEvidence
