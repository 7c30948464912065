import ClusterEvidence.Config.Hash
import Mathlib.Algebra.Group.Nat.Defs
import Mathlib.Data.List.Basic

/-!
# Settings and their hashed bytes

The hash of a configuration reads one string of bytes, in which the settings stand one
after another. A code is self-delimiting if a word of it, whatever bytes follow, shows
both itself and where it ends (`SelfDelimiting`). Numbers of a fixed width are, so a
string behind its length is, so a list behind its length is, whatever the strings hold;
and a row of such codes is read from the front. `Config.Bounded` says that the lengths
fit into their eight bytes.

`Config.hashed_eq_iff` is the main statement : two configurations are hashed from the same
bytes just if all their settings are the same.
-/

namespace ClusterEvidence

namespace Config

/-! ## Codes that show where their words end -/

/-- Of two words of a code with something behind them, the bytes show which word it is
and what is behind it. -/
def SelfDelimiting {α : Type} (valid : α → Prop) (code : α → Bytes) : Prop :=
  ∀ x y s t, valid x → valid y → code x ++ s = code y ++ t → x = y ∧ s = t

/-- Numbers that fit into the width are told apart by their bytes. -/
theorem selfDelimiting_littleEndian (k : ℕ) :
    SelfDelimiting (· < 256 ^ k) (littleEndian k) := by
  induction k with
  | zero =>
    intro m n s t hm hn h
    exact ⟨by omega, h⟩
  | succ k ih =>
    intro m n s t hm hn h
    rw [littleEndian, littleEndian, List.cons_append, List.cons_append] at h
    obtain ⟨hlow, hrest⟩ := List.cons.inj h
    have hbound : ∀ {i : ℕ}, i < 256 ^ (k + 1) → i / 256 < 256 ^ k := fun hi =>
      Nat.div_lt_of_lt_mul (by rwa [Nat.pow_succ'] at hi)
    obtain ⟨hhigh, hst⟩ := ih _ _ s t (hbound hm) (hbound hn) hrest
    have hmod : m % 256 = n % 256 := by
      simpa only [UInt8.toNat_ofNat'] using congrArg UInt8.toNat hlow
    exact ⟨by omega, hst⟩

/-- A string behind its length is cut off at the right place. -/
theorem selfDelimiting_sized :
    SelfDelimiting (fun s : Bytes => s.length < 2 ^ 64) sized := by
  intro x y s t hx hy h
  rw [sized, sized, List.append_assoc, List.append_assoc] at h
  obtain ⟨hlength, hrest⟩ := selfDelimiting_littleEndian 8 _ _ _ _ hx hy h
  exact List.append_inj hrest hlength

/-- Words of one code in a row, as many as is known beforehand. -/
theorem SelfDelimiting.flatMap {α : Type} {valid : α → Prop} {code : α → Bytes}
    (hcode : SelfDelimiting valid code) (n : ℕ) :
    SelfDelimiting (fun l : List α => l.length = n ∧ ∀ x ∈ l, valid x)
      (fun l => l.flatMap code) := by
  induction n with
  | zero =>
    rintro l m s t ⟨hl, -⟩ ⟨hm, -⟩ h
    obtain rfl := List.length_eq_zero_iff.1 hl
    obtain rfl := List.length_eq_zero_iff.1 hm
    exact ⟨rfl, h⟩
  | succ n ih =>
    rintro l m s t ⟨hl, hlv⟩ ⟨hm, hmv⟩ h
    obtain ⟨x, l, rfl⟩ := List.exists_cons_of_length_eq_add_one hl
    obtain ⟨y, m, rfl⟩ := List.exists_cons_of_length_eq_add_one hm
    rw [List.forall_mem_cons] at hlv hmv
    simp only [List.flatMap_cons, List.append_assoc] at h
    obtain ⟨rfl, hrest⟩ := hcode _ _ _ _ hlv.1 hmv.1 h
    obtain ⟨rfl, hst⟩ := ih _ _ _ _ ⟨Nat.succ.inj hl, hlv.2⟩ ⟨Nat.succ.inj hm, hmv.2⟩ hrest
    exact ⟨rfl, hst⟩

theorem selfDelimiting_sizedList :
    SelfDelimiting (fun l : List Bytes => l.length < 2 ^ 64 ∧ ∀ s ∈ l, s.length < 2 ^ 64)
      sizedList := by
  rintro l m s t ⟨hl, hls⟩ ⟨hm, hms⟩ h
  rw [sizedList, sizedList, List.append_assoc, List.append_assoc] at h
  obtain ⟨hlength, hrest⟩ := selfDelimiting_littleEndian 8 _ _ _ _ hl hm h
  exact selfDelimiting_sized.flatMap m.length _ _ _ _ ⟨hlength, hls⟩ ⟨rfl, hms⟩ hrest

theorem selfDelimiting_flag :
    SelfDelimiting (fun _ : Bool => True) (fun b => [if b then 1 else 0]) := by
  rintro (_ | _) (_ | _) s t - - h <;> simp_all

/-- The number of kept runs is hashed by its bits, the sign among them. -/
theorem selfDelimiting_int32 :
    SelfDelimiting (fun _ : Int32 => True) (fun n => littleEndian 4 n.toUInt32.toNat) := by
  intro m n s t _ _ h
  obtain ⟨hbits, hst⟩ := selfDelimiting_littleEndian 4 _ _ _ _ m.toUInt32.toNat_lt
    n.toUInt32.toNat_lt h
  exact ⟨congrArg Int32.ofUInt32 (UInt32.toNat_inj.1 hbits), hst⟩

/-! ## The settings in a row -/

/-- Settings whose strings and lists have lengths of eight bytes. -/
structure Bounded (c : Config) : Prop where
  strings : ∀ s ∈ [c.reportNamespace, c.logLevel, c.gather.clusterVersionName,
    c.gather.singletonName, c.source.type, c.source.snapshotPath, c.output.outDir],
    s.length < 2 ^ 64
  lists : ∀ l ∈ [c.vocabulary.allowedWords, c.vocabulary.trustedKeyDomains],
    l.length < 2 ^ 64 ∧ ∀ s ∈ l, s.length < 2 ^ 64

/-- All settings one after the other can be told from their bytes. -/
theorem selfDelimiting_hashed : SelfDelimiting Bounded hashed := by
  rintro ⟨ns, level, ⟨words, domains⟩, ⟨version, singleton, healthy⟩, ⟨type, path⟩, ⟨dir, keep⟩⟩
    ⟨ns', level', ⟨words', domains'⟩, ⟨version', singleton', healthy'⟩, ⟨type', path'⟩,
      ⟨dir', keep'⟩⟩ s t ⟨hs, hl⟩ ⟨hs', hl'⟩ h
  simp only [List.forall_mem_cons, List.not_mem_nil, IsEmpty.forall_iff, implies_true,
    and_true] at hs hl hs' hl'
  simp only [hashed, List.append_assoc] at h
  obtain ⟨hns, h⟩ := selfDelimiting_sized _ _ _ _ hs.1 hs'.1 h
  obtain ⟨hlevel, h⟩ := selfDelimiting_sized _ _ _ _ hs.2.1 hs'.2.1 h
  obtain ⟨hwords, h⟩ := selfDelimiting_sizedList _ _ _ _ hl.1 hl'.1 h
  obtain ⟨hdomains, h⟩ := selfDelimiting_sizedList _ _ _ _ hl.2 hl'.2 h
  obtain ⟨hversion, h⟩ := selfDelimiting_sized _ _ _ _ hs.2.2.1 hs'.2.2.1 h
  obtain ⟨hsingleton, h⟩ := selfDelimiting_sized _ _ _ _ hs.2.2.2.1 hs'.2.2.2.1 h
  obtain ⟨hhealthy, h⟩ := selfDelimiting_flag _ _ _ _ trivial trivial h
  obtain ⟨htype, h⟩ := selfDelimiting_sized _ _ _ _ hs.2.2.2.2.1 hs'.2.2.2.2.1 h
  obtain ⟨hpath, h⟩ := selfDelimiting_sized _ _ _ _ hs.2.2.2.2.2.1 hs'.2.2.2.2.2.1 h
  obtain ⟨hdir, h⟩ := selfDelimiting_sized _ _ _ _ hs.2.2.2.2.2.2 hs'.2.2.2.2.2.2 h
  obtain ⟨hkeep, h⟩ := selfDelimiting_int32 _ _ _ _ trivial trivial h
  subst_vars
  exact ⟨rfl, rfl⟩

/-- Two configurations are hashed from the same bytes just if they agree in every
setting, and they still have to agree when other bytes follow. -/
theorem hashed_eq_iff {a b : Config} (ha : a.Bounded) (hb : b.Bounded) :
    (a.hashed = b.hashed ↔ a = b) ∧
      ∀ s t, a.hashed ++ s = b.hashed ++ t → a = b ∧ s = t := by
  refine ⟨⟨fun h => ?_, fun h => by rw [h]⟩, fun s t => selfDelimiting_hashed _ _ _ _ ha hb⟩
  exact (selfDelimiting_hashed a b [] [] ha hb (by rw [h])).1

/-- A namespace that ends like the code of a log level, and words cut elsewhere : as many
bytes, but not the same. -/
theorem hashed_ne_of_shifted :
    let a : Config := { reportNamespace := "n" ++ sized "info", logLevel := [],
                        vocabulary := ⟨["ab", "c"], ["x"]⟩ }
    let b : Config := { reportNamespace := "n", logLevel := "info" ++ littleEndian 8 0,
                        vocabulary := ⟨["a", "bc"], ["x"]⟩ }
    a.Bounded ∧ b.Bounded ∧ a.hashed.length = b.hashed.length ∧ a.hashed ≠ b.hashed := by
  intro a b
  have ha : a.Bounded := ⟨by decide, by decide⟩
  have hb : b.Bounded := ⟨by decide, by decide⟩
  exact ⟨ha, hb, by decide +kernel, fun h => absurd ((hashed_eq_iff ha hb).1.1 h) (by decide)⟩

end Config

end ClusterEvidence
