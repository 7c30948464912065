import ClusterEvidence.Proofs.Run.Newest

/-!
# The times in names of runs

`RunName.time?` reads the time that a run started at from the name of its directory. Digits
stand for a number if they are its decimal digits behind any number of zeros
(`RunName.eq_padded`), so the names that give a time below `2 ^ 63` are
`insights-`, zeros and the decimal digits of the time (`RunName.gives_iff`).

`RunDirectory.times_read_back` : the time is read from exactly these names, and from the
directory of a run, made in whatever directory, unless the run started before time zero.
-/

namespace ClusterEvidence

namespace RunName

/-! ## Zeros in front -/

/-- The decimal digits of a number behind zeros. -/
def padded (zeros n : ℕ) : Bytes := List.replicate zeros 0x30 ++ Bytes.digits n

/-- Leading zeros do not count. -/
theorem value_zeros_append (zeros : ℕ) (digits : Bytes) :
    value (List.replicate zeros 0x30 ++ digits) = value digits := by
  have hzeros : (List.replicate zeros (0x30 : UInt8)).foldl
      (fun n b => 10 * n + (b.toNat - 0x30)) 0 = 0 := by
    induction zeros with
    | zero => rfl
    | succ zeros ih => rw [List.replicate_succ, List.foldl_cons]; exact ih
  rw [← foldl_eq_value, ← foldl_eq_value, List.foldl_append, hzeros]

theorem value_digits (n : ℕ) : value (Bytes.digits n) = n := by
  rw [← foldl_eq_value]
  exact Bytes.foldl_digits (by decide) n

theorem value_padded (zeros n : ℕ) : value (padded zeros n) = n := by
  rw [padded, value_zeros_append, value_digits]

theorem isDigit_of_mem_padded {zeros n : ℕ} {b : UInt8} (hb : b ∈ padded zeros n) :
    0x30 ≤ b ∧ b ≤ 0x39 := by
  rcases List.mem_append.1 hb with hzero | hdigit
  · rw [List.eq_of_mem_replicate hzero]
    decide
  · simpa [Bytes.isDigit] using Bytes.isDigit_of_mem_digits hdigit

/-- The byte of a digit is that of its value. -/
theorem ofNat_toNat_sub {b : UInt8} (h : 0x30 ≤ b ∧ b ≤ 0x39) :
    b.toNat - 0x30 < 10 ∧ UInt8.ofNat (0x30 + (b.toNat - 0x30)) = b := by
  have hlow : 0x30 ≤ b.toNat := UInt8.le_iff_toNat_le.1 h.1
  have hhigh : b.toNat ≤ 0x39 := UInt8.le_iff_toNat_le.1 h.2
  refine ⟨by omega, ?_⟩
  rw [Nat.add_sub_cancel' hlow, UInt8.ofNat_toNat]

/-- Digits are zeros and the decimal digits of the number they stand for. -/
theorem eq_padded {digits : Bytes} (hne : digits ≠ [])
    (hdigits : ∀ b ∈ digits, 0x30 ≤ b ∧ b ≤ 0x39) :
    ∃ zeros, digits = padded zeros (value digits) := by
  unfold padded
  induction digits using List.reverseRecOn with
  | nil => exact absurd rfl hne
  | append_singleton digits b ih =>
    obtain ⟨hlt, hbyte⟩ := ofNat_toNat_sub (hdigits b (by simp))
    rw [value_concat]
    rcases eq_or_ne digits [] with rfl | hfront
    · refine ⟨0, ?_⟩
      rw [show value [] = 0 from rfl, Nat.mul_zero, Nat.zero_add, Bytes.digits_of_lt hlt, hbyte]
      rfl
    obtain ⟨zeros, hzeros⟩ := ih hfront fun b hb => hdigits b (List.mem_append_left _ hb)
    rcases Nat.eq_zero_or_pos (value digits) with hzero | hpos
    · refine ⟨zeros + 1, ?_⟩
      rw [hzero, Bytes.digits_of_lt (by decide)] at hzeros
      rw [hzero, Nat.mul_zero, Nat.zero_add, Bytes.digits_of_lt hlt, hbyte, hzeros,
        List.replicate_succ']
      rfl
    · refine ⟨zeros, ?_⟩
      have hquotient : (10 * value digits + (b.toNat - 0x30)) / 10 = value digits := by omega
      have hremainder : (10 * value digits + (b.toNat - 0x30)) % 10 = b.toNat - 0x30 := by omega
      rw [Bytes.digits_of_le (by omega), hquotient, hremainder, hbyte, ← List.append_assoc,
        ← hzeros]

/-- The names that give a time. -/
theorem gives_iff {name : Bytes} {time : ℕ} : Gives name time ↔ time < 2 ^ 63 ∧
    ∃ zeros, name = "insights-" ++ padded zeros time := by
  constructor
  · rintro ⟨digits, rfl, hne, hdigits, rfl, hlt⟩
    obtain ⟨zeros, hzeros⟩ := eq_padded hne hdigits
    exact ⟨hlt, zeros, by rw [← hzeros]⟩
  · rintro ⟨hlt, zeros, rfl⟩
    exact ⟨_, rfl, List.append_ne_nil_of_right_ne_nil _ (Bytes.digits_ne_nil time),
      fun b => isDigit_of_mem_padded, (value_padded zeros time).symm, hlt⟩

/-! ## The name of a run -/

/-- The name of a run that started before time zero has a sign, and gives no time. -/
theorem time?_ofTime_of_neg {t : Nanoseconds} (h : t < 0) : time? (ofTime t) = none := by
  have hneg : t.toInt < 0 := Int64.lt_iff_toInt_lt.1 h
  obtain ⟨n, hn⟩ := Int.eq_negSucc_of_lt_zero hneg
  rw [Option.eq_none_iff_forall_ne_some]
  intro time htime
  obtain ⟨digits, hname, -, hdigits, -⟩ := time?_eq_some_iff.1 htime
  obtain rfl : Bytes.decimal t.toInt = digits := List.append_cancel_left hname
  rw [hn] at hdigits
  exact absurd (hdigits 0x2d List.mem_cons_self).1 (by decide)

end RunName

namespace RunDirectory

variable {ε : Type}

/-- Whether or not a run can be started, its directory is known by the path in the output
directory. -/
theorem runDir_begin (run : RunInfo) (d : RunDirectory ε) :
    (d.begin run).2.runDir = run.directory := by
  unfold begin
  dsimp only
  split
  · rfl
  · split
    · rfl
    · rfl

/-- What is read from names. A name gives a time exactly if it is `insights-` and decimal digits
for it, and the time is below `2 ^ 63`; these are the decimal digits behind any number of zeros,
and nothing is read from any other name. From the name of the directory of a run, wherever it is
made and whether or not the run can be started, the time that the run started at is read, unless
that is negative. -/
theorem times_read_back (name : Bytes) :
    (∀ time, RunName.time? name = some time ↔ RunName.Gives name time) ∧
      (∀ time, RunName.Gives name time ↔ time < 2 ^ 63 ∧
        ∃ zeros, name = "insights-" ++ RunName.padded zeros time) ∧
      (RunName.time? name = none ↔ ∀ time, ¬ RunName.Gives name time) ∧
      ∀ (env : Surroundings ε) (run : RunInfo) (d : RunDirectory ε) (e : ε),
        RunName.time? (Path.fileName (d.openRun env run e).1.2.runDir) =
          if 0 ≤ run.startedAt then some run.startedAt.toInt.toNat else none := by
  refine ⟨fun time => RunName.time?_eq_some_iff, fun time => RunName.gives_iff, ?_, ?_⟩
  · rw [Option.eq_none_iff_forall_ne_some]
    exact forall_congr' fun time => not_congr RunName.time?_eq_some_iff
  · intro env run d e
    obtain ⟨-, -, hname⟩ := Path.join_ofTime run.outDir run.startedAt
    have hrunDir : (d.openRun env run e).1.2.runDir = run.directory :=
      runDir_begin run (d.close env e).1
    rw [hrunDir, RunInfo.directory, hname]
    split
    · next hstart => exact RunName.time?_ofTime hstart
    · next hstart => exact RunName.time?_ofTime_of_neg (Int64.not_le.1 hstart)

/-- Zeros in front do not count, at any length; the bound and what is no digit do. -/
example :
    RunName.time? ("insights-" ++ RunName.padded 40 9223372036854775807) =
      some 9223372036854775807 ∧
    ∀ name ∈ (["insights-9223372036854775808", "insights-", "insights--1", "insights-+1",
      "insights- 1", "insights-1 ", "insights-1x", "Insights-1", "insights1"] : List Bytes),
      RunName.time? name = none := by
  decide +kernel

end RunDirectory

end ClusterEvidence
