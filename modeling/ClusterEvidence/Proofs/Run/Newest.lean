import ClusterEvidence.Proofs.Files.Order
import ClusterEvidence.Proofs.Run.Prune
import Mathlib.Data.List.Induction
import Mathlib.Data.Nat.Digits.Defs
import Mathlib.Data.Set.Card

/-!
# Pruning keeps the newest runs

A name gives the time of a run if it is `insights-` and decimal digits, with or without
leading zeros, for a number of 64 bits with a sign (`RunName.Gives`); the directories of such
names are the runs in a directory (`runNames`). A listing shows them if each is in it once, in
whatever order and among whatever else (`FileTree.Shows`); that of a tree does
(`FileTree.shows_listing`). So the runs that are kept and those in the surplus can be counted.

`FileTree.prune_newest` : as many runs are left as are to be kept, or all if there are fewer, and
none of them is older than one that is gone. That takes a listing that is not given up, and a path
of the output directory that leads there to the end : an entry that cannot be looked at, such as
a link that leads nowhere, keeps every run, and a path through a run that is removed keeps those
that should be removed after it (`FileTree.run_behind_gone_stays`), though all removals succeed.
In any case no more runs are gone than should be, and what is neither a run that is gone nor below
one is as it was.
-/

namespace ClusterEvidence

namespace RunName

/-- The number that decimal digits stand for, the most significant one first. -/
def value (digits : Bytes) : ℕ := Nat.ofDigits 10 (digits.reverse.map fun b => b.toNat - 0x30)

/-- The name is that of the run that started at the time : the digits behind the start of the
name stand for it, and it fits. -/
def Gives (name : Bytes) (time : ℕ) : Prop :=
  ∃ digits : Bytes, name = "insights-" ++ digits ∧ digits ≠ [] ∧
    (∀ b ∈ digits, 0x30 ≤ b ∧ b ≤ 0x39) ∧ time = value digits ∧ time < 2 ^ 63

/-- A digit more makes the number ten times as large, and adds to it. -/
theorem value_concat (digits : Bytes) (b : UInt8) :
    value (digits ++ [b]) = 10 * value digits + (b.toNat - 0x30) := by
  rw [value, List.reverse_append, List.reverse_singleton, List.singleton_append, List.map_cons,
    Nat.ofDigits_cons, Nat.add_comm]
  rfl

/-- Digits are read as the number they stand for. -/
theorem foldl_eq_value (digits : Bytes) :
    digits.foldl (fun n b => 10 * n + (b.toNat - 0x30)) 0 = value digits := by
  induction digits using List.reverseRecOn with
  | nil => rfl
  | append_singleton digits b ih => rw [List.foldl_append, ih, value_concat]; rfl

/-- What is read as a number is digits, and there are some. -/
theorem natural?_eq_some_iff {s : Bytes} {n : ℕ} : Bytes.natural? s = some n ↔
    s ≠ [] ∧ (∀ b ∈ s, 0x30 ≤ b ∧ b ≤ 0x39) ∧ n = value s := by
  rw [Bytes.natural?, foldl_eq_value, Option.ite_none_left_eq_some, Option.some.injEq,
    eq_comm (a := n)]
  simp only [Bool.or_eq_true, Bool.not_eq_true', not_or, Bool.not_eq_false, List.isEmpty_iff,
    List.all_eq_true, Bytes.isDigit, Bool.and_eq_true, decide_eq_true_eq, and_assoc]

/-- The names of runs are read as what they are, and others are not. -/
theorem time?_eq_some_iff {name : Bytes} {time : ℕ} :
    time? name = some time ↔ Gives name time := by
  have hbound : timeBound = 2 ^ 63 := rfl
  constructor
  · intro h
    unfold time? at h
    split at h
    · next hstart =>
      obtain ⟨digits, rfl⟩ := List.isPrefixOf_iff_prefix.1 hstart
      rw [List.drop_left, Option.filter_eq_some_iff, natural?_eq_some_iff, decide_eq_true_eq,
        hbound] at h
      obtain ⟨⟨hne, hdigits, hvalue⟩, hlt⟩ := h
      exact ⟨digits, rfl, hne, hdigits, hvalue, hlt⟩
    · cases h
  · rintro ⟨digits, rfl, hne, hdigits, hvalue, hlt⟩
    have hstart : Bytes.startsWith start ("insights-" ++ digits) = true :=
      List.isPrefixOf_iff_prefix.2 (List.prefix_append _ _)
    rw [time?, if_pos hstart, show ("insights-" : Bytes) = start from rfl, List.drop_left,
      Option.filter_eq_some_iff, natural?_eq_some_iff, decide_eq_true_eq, hbound]
    exact ⟨⟨hne, hdigits, hvalue⟩, hlt⟩

end RunName

/-- The names of the runs in a directory : they give a time, and are directories. -/
def runNames (t : FileTree) (l : Location) : Set Bytes :=
  {name | (∃ time, RunName.Gives name time) ∧ t.at? (l ++ [name]) = some .directory}

/-! ## Counting -/

section Surplus

variable {runs : List (Nat × Bytes)} {run : Nat × Bytes} {keep : Nat}

/-- Runs that are listed once are kept or removed, and not both. -/
theorem mem_kept_iff (hruns : runs.Nodup) :
    run ∈ (newestFirst runs).take keep ↔ run ∈ runs ∧ run ∉ surplus keep runs := by
  have hnodup : (newestFirst runs).Nodup := (List.mergeSort_perm runs _).nodup_iff.2 hruns
  constructor
  · intro hkept
    refine ⟨(List.mergeSort_perm runs _).subset (List.mem_of_mem_take hkept), fun hgone => ?_⟩
    rw [← List.take_append_drop keep (newestFirst runs), List.nodup_append] at hnodup
    exact hnodup.2.2 run hkept run hgone rfl
  · exact fun h => (mem_kept_or_surplus h.1 keep).resolve_right h.2

end Surplus

theorem ncard_of_nodup {names : List Bytes} (h : names.Nodup) :
    {name | name ∈ names}.ncard = names.length := by
  rw [← List.coe_toFinset, Set.ncard_coe_finset, List.toFinset_card_of_nodup h]

namespace FileTree

variable {t : FileTree} {l l' : Location} {outDir name : Bytes} {listing : List ListedEntry}
  {runs : List (Nat × Bytes)} {run : Nat × Bytes} {time keep : Nat}

/-! ## The runs that are listed -/

/-- A listing shows the runs in a directory : no name is listed twice, and a name that gives a
time is shown as that of a directory just where a directory stands. Whatever else is in the
directory may be listed as anything, or not at all. -/
structure Shows (listing : List ListedEntry) (t : FileTree) (l : Location) : Prop where
  nodup : (listing.map ListedEntry.name).Nodup
  runs : ∀ name time, RunName.Gives name time →
    (⟨name, some true⟩ ∈ listing ↔ t.at? (l ++ [name]) = some .directory)

/-- The names in the listing of a directory are in the order of the entries. -/
theorem listing_sublist (t : FileTree) (l : Location) :
    ((t.listing l).map fun x => l ++ [x.name]).Sublist (t.entries.map Prod.fst) := by
  unfold FileTree.listing
  induction t.entries with
  | nil => exact .refl []
  | cons e entries ih =>
    by_cases hplace : e.1.length = l.length + 1 ∧ e.1.dropLast = l
    · obtain ⟨name, hname⟩ : ∃ name, e.1 = l ++ [name] := by
        rcases List.eq_nil_or_concat e.1 with hnil | ⟨front, name, hconcat⟩
        · exact absurd hplace.1 (by simp [hnil])
        · rw [hconcat, List.concat_eq_append, List.dropLast_concat] at hplace
          exact ⟨name, by rw [hconcat, List.concat_eq_append, hplace.2]⟩
      rw [List.filterMap_cons_some (b := ⟨name, some !e.2.isFile⟩) (by simp [hname]),
        List.map_cons, List.map_cons, hname]
      exact ih.cons_cons _
    · rw [List.filterMap_cons_none (by simp [hplace]), List.map_cons]
      exact ih.cons _

/-- The listing of a directory of a tree shows the runs in it. -/
theorem shows_listing (ht : (t.entries.map Prod.fst).Nodup) (l : Location) :
    Shows (t.listing l) t l where
  nodup := by
    refine List.Nodup.of_map (fun name => l ++ [name]) ?_
    rw [List.map_map]
    exact ht.sublist (listing_sublist t l)
  runs := by
    intro name time htime
    have habove := RunName.isAbove_concat (RunName.time?_eq_some_iff.2 htime) l
    rw [mem_listing, at?_eq_some_iff_mem ht habove]
    constructor
    · rintro ⟨_ | _, hmem, hdirectory⟩
      · cases hdirectory
      · exact hmem
    · exact fun hmem => ⟨_, hmem, rfl⟩

/-- The names of the runs in a listing are in the order of the listing. -/
theorem map_snd_runsListed_sublist (hruns : runsListed listing = some runs) :
    (runs.map Prod.snd).Sublist (listing.map ListedEntry.name) := by
  rw [eq_filterMap_of_runsListed hruns]
  clear hruns
  induction listing with
  | nil => exact .refl []
  | cons x listing ih =>
    cases hx : x.run? with
    | none =>
      rw [List.filterMap_cons_none hx, List.map_cons]
      exact ih.cons _
    | some run =>
      obtain ⟨-, -, hname⟩ := ListedEntry.run?_eq_some_iff.1 hx
      rw [List.filterMap_cons_some hx, List.map_cons, List.map_cons, hname]
      exact ih.cons_cons _

theorem time_of_mem_runsListed (hruns : runsListed listing = some runs) (hrun : run ∈ runs) :
    RunName.time? run.2 = some run.1 := by
  rw [eq_filterMap_of_runsListed hruns, List.mem_filterMap] at hrun
  obtain ⟨x, -, hx⟩ := hrun
  obtain ⟨-, htime, hname⟩ := ListedEntry.run?_eq_some_iff.1 hx
  rwa [hname] at htime

section Shown

variable (hshows : Shows listing t l) (hruns : runsListed listing = some runs)

include hshows hruns

theorem nodup_map_snd : (runs.map Prod.snd).Nodup :=
  hshows.nodup.sublist (map_snd_runsListed_sublist hruns)

/-- The runs in a listing are the directories of such names. -/
theorem mem_runsListed_iff : (time, name) ∈ runs ↔
    RunName.Gives name time ∧ t.at? (l ++ [name]) = some .directory := by
  rw [eq_filterMap_of_runsListed hruns, List.mem_filterMap]
  constructor
  · rintro ⟨⟨name', directory?⟩, hmem, hx⟩
    obtain ⟨rfl, htime, rfl⟩ := ListedEntry.run?_eq_some_iff.1 hx
    have hgives := RunName.time?_eq_some_iff.1 htime
    exact ⟨hgives, (hshows.runs _ _ hgives).1 hmem⟩
  · rintro ⟨hgives, hat⟩
    exact ⟨_, (hshows.runs _ _ hgives).2 hat,
      ListedEntry.run?_eq_some_iff.2 ⟨rfl, RunName.time?_eq_some_iff.2 hgives, rfl⟩⟩

theorem mem_runNames_iff : name ∈ runNames t l ↔ name ∈ runs.map Prod.snd := by
  simp only [runNames, Set.mem_ofPred_eq, List.mem_map, Prod.exists, exists_eq_right,
    mem_runsListed_iff hshows hruns, exists_and_right]

/-- There are as many runs as are listed. -/
theorem ncard_runNames : (runNames t l).ncard = runs.length := by
  rw [← List.length_map (f := Prod.snd), ← ncard_of_nodup (nodup_map_snd hshows hruns)]
  exact congrArg Set.ncard (Set.ext fun _ => mem_runNames_iff hshows hruns)

theorem finite_runNames : (runNames t l).Finite :=
  (List.finite_toSet (runs.map Prod.snd)).subset fun _ => (mem_runNames_iff hshows hruns).1

theorem nodup_map_snd_kept (keep : ℕ) :
    (((newestFirst runs).take keep).map Prod.snd).Nodup :=
  (((List.mergeSort_perm runs _).map Prod.snd).nodup_iff.2
    (nodup_map_snd hshows hruns)).sublist ((List.take_sublist _ _).map _)

end Shown

/-! ## The runs that are left -/

/-- As long as the path of the output directory leads there, a removal fails only over a path that
is too long. -/
theorem removeRuns_done_iff (hleads : (removeRuns outDir runs t).1.resolve outDir = .ok l) :
    (removeRuns outDir runs t).2 = [] ↔
      ∀ run ∈ runs, (Path.join outDir run.2).length < maxPath := by
  induction runs generalizing t with
  | nil => exact iff_of_true rfl fun _ h => nomatch h
  | cons first runs ih =>
    rw [removeRuns_cons] at hleads
    have hthere := resolve_of_removeRun (resolve_of_removeRuns hleads)
    have hfirst : (removeRun outDir first.2 t).2 = none ↔
        (Path.join outDir first.2).length < maxPath := by
      rw [removeRun, hthere]
      dsimp only
      split
      · next hlong => exact iff_of_false (by simp) (Nat.not_lt.2 hlong)
      · next hshort => exact iff_of_true rfl (Nat.not_le.1 hshort)
    rw [List.forall_mem_cons, ← ih hleads, ← hfirst]
    simp [removeRuns]

/-- A run that is not in the surplus stays as it is. -/
theorem at?_removed_run (hruns : runsListed listing = some runs)
    (hname : RunName.Gives name time) (hkept : (time, name) ∉ surplus keep runs) :
    (removeRuns outDir (surplus keep runs) t).1.at? (Path.locate outDir ++ [name]) =
      t.at? (Path.locate outDir ++ [name]) :=
  at?_removeRuns_run (RunName.time?_eq_some_iff.2 hname)
    (fun _ hrun => time_of_mem_runsListed hruns (mem_of_mem_surplus hrun)) hkept

/-- Only runs in the surplus are gone. -/
theorem mem_surplus_of_gone (hruns : runsListed listing = some runs)
    (hgone : name ∈ runNames t (Path.locate outDir) \
      runNames (removeRuns outDir (surplus keep runs) t).1 (Path.locate outDir))
    (htime : RunName.Gives name time) : (time, name) ∈ surplus keep runs := by
  obtain ⟨⟨-, hat⟩, hafter⟩ := hgone
  refine by_contra fun hkept => hafter ⟨⟨time, htime⟩, ?_⟩
  rw [at?_removed_run hruns htime hkept, hat]

/-- Nothing is left of a run that is gone. -/
theorem at?_of_gone (hgone : name ∈ runNames t (Path.locate outDir) \
      runNames (removeRuns outDir runs t).1 (Path.locate outDir)) (way : Location) :
    (removeRuns outDir runs t).1.at? (Path.locate outDir ++ name :: way) = none := by
  obtain ⟨⟨⟨time, htime⟩, hat⟩, hafter⟩ := hgone
  have habove := RunName.isAbove_concat (RunName.time?_eq_some_iff.2 htime) (Path.locate outDir)
  rcases at?_removeRuns outDir runs t (Path.locate outDir ++ [name]) with
    hsame | ⟨run, -, hbelow, hnone⟩
  · exact absurd ⟨⟨time, htime⟩, hsame.trans hat⟩ hafter
  · obtain rfl : run.2 = name := by simpa using hbelow
    refine hnone _ ⟨way, by simp⟩ ?_
    simp only [Path.isAbove, List.all_append, List.all_cons, List.all_nil, Bool.and_true,
      Bool.and_eq_false_iff] at habove ⊢
    exact habove.imp_right .inl

section Left

variable (hshows : Shows listing t (Path.locate outDir)) (hruns : runsListed listing = some runs)

include hshows hruns

/-- The runs that are kept are left. -/
theorem mem_runNames_of_kept (hkept : run ∈ (newestFirst runs).take keep) : run.2 ∈
    runNames (removeRuns outDir (surplus keep runs) t).1 (Path.locate outDir) := by
  obtain ⟨hrun, hkept⟩ := (mem_kept_iff (nodup_map_snd hshows hruns).of_map).1 hkept
  obtain ⟨htime, hat⟩ := (mem_runsListed_iff hshows hruns).1 hrun
  exact ⟨⟨_, htime⟩, by rw [at?_removed_run hruns htime hkept, hat]⟩

/-- A run is gone only if as many as are to be kept, each at least as new, are left. -/
theorem le_ncard_of_gone (hgone : name ∈ runNames t (Path.locate outDir) \
      runNames (removeRuns outDir (surplus keep runs) t).1 (Path.locate outDir))
    (htime : RunName.Gives name time) :
    keep ≤ {name ∈ runNames (removeRuns outDir (surplus keep runs) t).1 (Path.locate outDir) |
      ∃ time', RunName.Gives name time' ∧ time ≤ time'}.ncard := by
  have hsurplus := mem_surplus_of_gone hruns hgone htime
  calc keep = (((newestFirst runs).take keep).map Prod.snd).length := by
        rw [List.length_map, length_kept hsurplus]
    _ = {name | name ∈ ((newestFirst runs).take keep).map Prod.snd}.ncard :=
        (ncard_of_nodup (nodup_map_snd_kept hshows hruns keep)).symm
    _ ≤ _ := ?_
  refine Set.ncard_le_ncard (fun name hname => ?_) ((finite_runNames hshows hruns).subset
    fun name hname => ⟨hname.1.1, at?_of_removeRuns hname.1.2⟩)
  obtain ⟨run, hkept, rfl⟩ := List.mem_map.1 hname
  have hlisted := (mem_kept_iff (nodup_map_snd hshows hruns).of_map).1 hkept
  exact ⟨mem_runNames_of_kept hshows hruns hkept, run.1,
    ((mem_runsListed_iff hshows hruns).1 hlisted.1).1, surplus_le_kept hkept hsurplus⟩

/-- What is neither a run that is gone nor below one is as it was. -/
theorem at?_of_not_below_gone (h : ∀ gone ∈ runNames t (Path.locate outDir) \
      runNames (removeRuns outDir (surplus keep runs) t).1 (Path.locate outDir),
      ¬ Path.locate outDir ++ [gone] <+: l') :
    (removeRuns outDir (surplus keep runs) t).1.at? l' = t.at? l' := by
  refine (at?_removeRuns outDir _ t l').resolve_right ?_
  rintro ⟨run, hrun, hbelow, hnone⟩
  obtain ⟨htime, hat⟩ := (mem_runsListed_iff hshows hruns).1 (mem_of_mem_surplus hrun)
  refine h run.2 ⟨⟨⟨_, htime⟩, hat⟩, fun hafter => ?_⟩ hbelow
  have hself := hnone _ List.prefix_rfl
    (RunName.isAbove_concat (RunName.time?_eq_some_iff.2 htime) _)
  exact absurd (hself.symm.trans hafter.2) (by simp)

variable (hdone : (removeRuns outDir (surplus keep runs) t).2 = [])
  (hleads : (removeRuns outDir (surplus keep runs) t).1.resolve outDir = .ok l)

include hdone hleads

/-- If all removals succeed and the path of the output directory leads there to the end, the
runs that are kept are those that are left. -/
theorem mem_runNames_removed_iff :
    name ∈ runNames (removeRuns outDir (surplus keep runs) t).1 (Path.locate outDir) ↔
      name ∈ ((newestFirst runs).take keep).map Prod.snd := by
  constructor
  · rintro ⟨⟨time, htime⟩, hleft⟩
    have hrun := (mem_runsListed_iff hshows hruns).2 ⟨htime, at?_of_removeRuns hleft⟩
    refine List.mem_map.2 ⟨(time, name),
      (mem_kept_or_surplus hrun keep).resolve_right fun hsurplus => ?_, rfl⟩
    have hnone := at?_removeRuns_of_mem hsurplus hleads
      ((removeRuns_done_iff hleads).1 hdone _ hsurplus) List.prefix_rfl
      (RunName.isAbove_concat (RunName.time?_eq_some_iff.2 htime) _)
    exact absurd (hnone.symm.trans hleft) (by simp)
  · intro hname
    obtain ⟨run, hkept, rfl⟩ := List.mem_map.1 hname
    exact mem_runNames_of_kept hshows hruns hkept

/-- As many runs are left as are to be kept, or all if they are fewer. -/
theorem ncard_runNames_removed :
    (runNames (removeRuns outDir (surplus keep runs) t).1 (Path.locate outDir)).ncard =
      min keep (runNames t (Path.locate outDir)).ncard := by
  have hkept := nodup_map_snd_kept hshows hruns keep
  rw [ncard_runNames hshows hruns, ← List.length_mergeSort runs, ← List.length_take,
    ← List.length_map (f := Prod.snd)]
  rw [newestFirst] at hkept
  rw [← ncard_of_nodup hkept]
  exact congrArg Set.ncard
    (Set.ext fun _ => mem_runNames_removed_iff hshows hruns hdone hleads)

/-- No run that is left is older than one that is gone. -/
theorem time_le_of_left {gone : Bytes} {time' : ℕ}
    (hname : name ∈ runNames (removeRuns outDir (surplus keep runs) t).1 (Path.locate outDir))
    (hgone : gone ∈ runNames t (Path.locate outDir) \
      runNames (removeRuns outDir (surplus keep runs) t).1 (Path.locate outDir))
    (htime : RunName.Gives name time) (htime' : RunName.Gives gone time') : time' ≤ time := by
  obtain ⟨run, hkept, rfl⟩ :=
    List.mem_map.1 ((mem_runNames_removed_iff hshows hruns hdone hleads).1 hname)
  have hrun := ((mem_kept_iff (nodup_map_snd hshows hruns).of_map).1 hkept).1
  have hsame := (time_of_mem_runsListed hruns hrun).symm.trans
    (RunName.time?_eq_some_iff.2 htime)
  rw [← Option.some.inj hsame]
  exact surplus_le_kept hkept (mem_surplus_of_gone hruns hgone htime')

end Left

/-! ## Pruning -/

/-- What pruning does to an output directory, going by a listing that shows the runs in it. If
the listing is given up, it does nothing. If it is not and the path of the output directory leads
there to the end, no removal fails unless the path of a run is too long; and if none fails, as many
runs are left as are to be kept, or all if they are fewer, and none that is left is older than one
that is gone. In any case a run is gone only if as many as are to be kept, each at least as new,
are left. What has another name, and what is neither a run that is gone nor below one, is as it
was; and of the runs that are gone nothing is left. -/
theorem prune_newest (keep : ℕ) (outDir : Bytes) (l : Location) (listing : List ListedEntry)
    (t : FileTree) (hl : t.resolve outDir = .ok l) (hshows : Shows listing t l) :
    let left := (prune keep outDir listing t).1
    let before := runNames t l
    let after := runNames left l
    (GivenUp listing → prune keep outDir listing t = (t, [])) ∧
      (¬ GivenUp listing → left.resolve outDir = .ok l →
        ((∀ name ∈ before, (Path.join outDir name).length < maxPath) →
          (prune keep outDir listing t).2 = []) ∧
        ((prune keep outDir listing t).2 = [] → after.ncard = min keep before.ncard ∧
          ∀ name ∈ after, ∀ gone ∈ before \ after, ∀ time time', RunName.Gives name time →
            RunName.Gives gone time' → time' ≤ time)) ∧
      after ⊆ before ∧
      (∀ gone ∈ before \ after, ∀ time, RunName.Gives gone time →
        keep ≤ {name ∈ after | ∃ time', RunName.Gives name time' ∧ time ≤ time'}.ncard) ∧
      (∀ name ∉ before, ∀ way, left.at? (l ++ name :: way) = t.at? (l ++ name :: way)) ∧
      (∀ l', (∀ gone ∈ before \ after, ¬ l ++ [gone] <+: l') → left.at? l' = t.at? l') ∧
      ∀ gone ∈ before \ after, ∀ way, left.at? (l ++ gone :: way) = none := by
  intro left before after
  obtain rfl := resolve_eq_locate hl
  cases hruns : runsListed listing with
  | none =>
    have hprune : prune keep outDir listing t = (t, []) := by
      rw [prune, hruns]
    have hleft : left = t := congrArg Prod.fst hprune
    have hnone : before \ after = ∅ := by
      rw [show after = before from congrArg (runNames · _) hleft, sdiff_self]
      rfl
    have hcut := runsListed_eq_none_iff.1 hruns
    refine ⟨fun _ => hprune, fun hread => absurd hcut hread, ?_, ?_, ?_, ?_, ?_⟩
    · exact (congrArg (runNames · _) hleft).le
    · simp [hnone]
    · simp [hleft]
    · simp [hleft]
    · simp [hnone]
  | some runs =>
    have hprune : prune keep outDir listing t = removeRuns outDir (surplus keep runs) t := by
      rw [prune, hruns]
    have hread : ¬ GivenUp listing := by
      rw [← runsListed_eq_none_iff, hruns]
      simp
    have hothers : ∀ l', (∀ gone ∈ before \ after, ¬ Path.locate outDir ++ [gone] <+: l') →
        left.at? l' = t.at? l' := by
      simp only [left, before, after, hprune]
      exact fun l' => at?_of_not_below_gone hshows hruns
    refine ⟨fun hcut => absurd hcut hread, fun _ => ?_, ?_, ?_, ?_, hothers, ?_⟩
    · simp only [left, before, after, hprune]
      refine fun hleads =>
        ⟨fun hshort => (removeRuns_done_iff hleads).2 fun run hrun => hshort _ ?_,
        fun hdone => ⟨ncard_runNames_removed hshows hruns hdone hleads,
          fun name hname gone hgone time time' =>
            time_le_of_left hshows hruns hdone hleads hname hgone⟩⟩
      exact (mem_runNames_iff hshows hruns).2 (List.mem_map_of_mem (mem_of_mem_surplus hrun))
    · exact fun name hname => ⟨hname.1, at?_of_prune hname.2⟩
    · simp only [left, before, after, hprune]
      exact fun gone hgone time => le_ncard_of_gone hshows hruns hgone
    · refine fun name hname way => hothers _ fun gone hgone hbelow => hname ?_
      rw [List.prefix_append_right_inj, List.cons_prefix_cons] at hbelow
      exact hbelow.1 ▸ hgone.1
    · simp only [left, before, after, hprune]
      exact fun gone => at?_of_gone

/-- Of three runs two are kept; two of them started at one time, and the third is older, though
its name comes last. A file and directories with other names stay where they are. The last entry
of the listing is a link that leads nowhere. -/
theorem two_newest_stay :
    let t : FileTree := ⟨[(["out"], .directory),
      (["out", "insights-3"], .file "x"), (["out", "insights-010"], .directory),
      (["out", "insights--5"], .directory), (["out", "insights-10"], .directory),
      (["out", "insights-9"], .directory), (["out", "insights-9", "a"], .file "y"),
      (["out", "insights-9223372036854775808"], .directory), (["out", "insights-"], .directory),
      (["out", "insights-1b"], .directory), (["out", "other-11"], .directory)]⟩
    let listing := t.listing ["out"] ++ [⟨"latest", none⟩]
    let left := (prune 2 "out" listing t).1
    let others : List Bytes := ["insights-3", "insights--5", "insights-9223372036854775808",
      "insights-", "insights-1b", "other-11"]
    t.resolve "out" = .ok ["out"] ∧ Shows listing t ["out"] ∧ ¬ GivenUp listing ∧
      (prune 2 "out" listing t).2 = [] ∧ left.resolve "out" = .ok ["out"] ∧
      (runNames t ["out"]).ncard = 3 ∧ (runNames left ["out"]).ncard = 2 ∧
      ∀ name ∈ others, left.at? ["out", name] = t.at? ["out", name] := by
  intro t listing left others
  have ht : (t.entries.map Prod.fst).Nodup := by decide +kernel
  have hl : t.resolve "out" = .ok ["out"] := by decide +kernel
  have hshown := shows_listing ht ["out"]
  have hshows : Shows listing t ["out"] := by
    refine ⟨by decide +kernel, fun name time htime => ?_⟩
    rw [← hshown.runs name time htime, List.mem_append, List.mem_singleton]
    simp
  have hread : ¬ GivenUp listing := by
    rw [← runsListed_eq_none_iff]
    decide +kernel
  let runs : List (ℕ × Bytes) := [(10, "insights-010"), (10, "insights-10"), (9, "insights-9")]
  have hruns : runsListed listing = some runs := by decide +kernel
  have hprune : prune 2 "out" listing t = removeRuns "out" (runs.drop 2) t := by
    rw [prune, hruns]
    dsimp only
    rw [surplus, newestFirst, List.mergeSort_of_pairwise (by decide)]
  have hleads : left.resolve "out" = .ok ["out"] := by
    rw [show left = _ from congrArg Prod.fst hprune]
    decide +kernel
  obtain ⟨-, hcount, -, -, hothers, -, -⟩ := prune_newest 2 "out" ["out"] listing t hl hshows
  obtain ⟨-, hnewest⟩ := hcount hread hleads
  have hdone : (prune 2 "out" listing t).2 = [] := by
    rw [hprune]
    decide +kernel
  have hnumber : (runNames t ["out"]).ncard = 3 := by
    rw [ncard_runNames hshown (runsListed_listing t ["out"])]
    decide +kernel
  have hnames : ∀ name ∈ others, RunName.time? name = none ∨
      t.at? ["out", name] ≠ some .directory := by
    decide +kernel
  refine ⟨hl, hshows, hread, hdone, hleads, hnumber, ?_, fun name hname => ?_⟩
  · rw [(hnewest hdone).1, hnumber]
    rfl
  · refine hothers name ?_ []
    rintro ⟨⟨time, htime⟩, hat⟩
    rcases hnames name hname with hnone | hfile
    · exact Option.some_ne_none time ((RunName.time?_eq_some_iff.2 htime).symm.trans hnone)
    · exact hfile hat

example (t : FileTree) : prune 1 "out" [⟨"latest", none⟩, ⟨"insights-1", some true⟩,
    ⟨"insights-2", some true⟩] t = (t, []) := rfl

/-- One run is kept. The path of the output directory goes through a run that is removed, so the
one that is removed after it is not found any more : all removals succeed, and two runs are left,
one of them older than the one that is gone. -/
theorem run_behind_gone_stays :
    let t : FileTree := ⟨[(["out"], .directory), (["out", "insights-1"], .directory),
      (["out", "insights-2"], .directory), (["out", "insights-3"], .directory)]⟩
    let outDir : Bytes := "out/insights-2/.."
    let listing := t.listing ["out"]
    let left := (prune 1 outDir listing t).1
    t.resolve outDir = .ok ["out"] ∧ Shows listing t ["out"] ∧ ¬ GivenUp listing ∧
      (prune 1 outDir listing t).2 = [] ∧ (runNames t ["out"]).ncard = 3 ∧
      (runNames left ["out"]).ncard = 2 ∧ left.at? ["out", "insights-1"] = some .directory ∧
      left.at? ["out", "insights-2"] = none := by
  intro t outDir listing left
  have ht : (t.entries.map Prod.fst).Nodup := by decide +kernel
  let runs : List (ℕ × Bytes) := [(3, "insights-3"), (2, "insights-2"), (1, "insights-1")]
  have hruns : (runsIn t ["out"]).Perm runs := by decide +kernel
  have hprune : prune 1 outDir listing t = removeRuns outDir (runs.drop 1) t := by
    rw [prune, runsListed_listing]
    dsimp only
    rw [surplus_eq hruns (by decide)]
  have hdone : (prune 1 outDir listing t).2 = [] := by
    rw [hprune]
    decide +kernel
  have hleft : left = ⟨[(["out"], .directory), (["out", "insights-1"], .directory),
      (["out", "insights-3"], .directory)]⟩ := by
    rw [show left = _ from congrArg Prod.fst hprune]
    decide +kernel
  rw [hleft]
  refine ⟨by decide +kernel, shows_listing ht _, not_givenUp_listing t _, hdone, ?_, ?_, by decide,
    by decide⟩
  · rw [ncard_runNames (shows_listing ht _) (runsListed_listing _ _)]
    decide +kernel
  · rw [ncard_runNames (shows_listing (by decide +kernel) _) (runsListed_listing _ _)]
    decide +kernel

end FileTree

namespace RunDirectory

variable {ε : Type} {d : RunDirectory ε} {outDir : Bytes} {l : Location}

/-- A run directory is pruned by the listing of its tree. -/
theorem pruning_eq_prune (hkeep : 0 < d.keepLast) (hl : d.tree.resolve outDir = .ok l) :
    d.pruning outDir = prune d.keepLast outDir (d.tree.listing l) d.tree := by
  rw [pruning, if_neg (Nat.ne_of_gt hkeep), hl]

/-- How many runs are left when a run is started : those that are to be kept, or all if they are
fewer. -/
theorem ncard_runNames_pruned (hkeep : 0 < d.keepLast) (ht : (d.tree.entries.map Prod.fst).Nodup)
    (hl : d.tree.resolve outDir = .ok l) (hdone : (d.pruning outDir).2 = [])
    (hleads : (d.pruned outDir).resolve outDir = .ok l) :
    (runNames (d.pruned outDir) l).ncard = min d.keepLast (runNames d.tree l).ncard := by
  have hruns := FileTree.runsListed_listing d.tree l
  unfold pruned at hleads ⊢
  rw [pruning_eq_prune hkeep hl, prune, hruns] at hdone hleads ⊢
  obtain rfl := FileTree.resolve_eq_locate hl
  exact FileTree.ncard_runNames_removed (FileTree.shows_listing ht _) hruns hdone hleads

end RunDirectory

end ClusterEvidence
