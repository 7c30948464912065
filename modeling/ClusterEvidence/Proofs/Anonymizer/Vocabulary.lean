import ClusterEvidence.Proofs.Anonymizer.Words
import Mathlib.Data.Set.Basic
import Mathlib.Logic.Relation

/-!
# What a vocabulary says

A vocabulary is a list of entries, and an anonymizer asks it about the words of a text. Words
are not empty, have no separators, and keep being such words in small letters
(`proper_lower_iff`). So an entry that is empty or has a separator is never met, and of every
other one only the small letters count : `Vocabulary.words` is the set of what is left, and a
word is shown if its small letters are in it (`allows_iff_mem_words`).

Two vocabularies rewrite every text alike just if they show the same words, those apart that are
their own digest (`url_eq_iff`). With one set of words they do so however their entries are
written down, and `same_outputs` says it of every transform, and of entries that are moved,
repeated, put into other letters, or added without being words (`Vocabulary.Reworded`).
-/

namespace ClusterEvidence

variable {b : UInt8} {w u : Bytes} {v v' : Vocabulary}

/-! ## Small letters -/

/-- Small letters are made of letters only. -/
@[simp] theorem isWordByte_lowerByte (b : UInt8) : isWordByte (Bytes.lowerByte b) = isWordByte b := by
  refine Bytes.of_toNat_lt (P := fun b => isWordByte (Bytes.lowerByte b) = isWordByte b) ?_
    b.toNat_lt
  decide +kernel

/-- A word is one in small letters too, and what is no word is none. -/
theorem proper_lower_iff (w : Bytes) :
    (Segment.word (Bytes.lower w)).Proper ↔ (Segment.word w).Proper := by
  simp [Segment.Proper, Bytes.lower]

/-- Texts of the same small letters are words alike. -/
theorem proper_congr (h : Bytes.lower w = Bytes.lower u) :
    (Segment.word w).Proper ↔ (Segment.word u).Proper := by
  rw [← proper_lower_iff, h, proper_lower_iff]

/-! ## The words of a vocabulary -/

namespace Vocabulary

/-- The entries in small letters, without those that are empty or have a separator. -/
def words (v : Vocabulary) : Set Bytes :=
  {u | ∃ w ∈ v.allowedWords, (Segment.word w).Proper ∧ Bytes.lower w = u}

/-- A word is in the vocabulary if its small letters are among the words. -/
theorem allows_iff_mem_words (hw : (Segment.word w).Proper) :
    v.Allows w ↔ Bytes.lower w ∈ v.words := by
  constructor
  · intro h
    obtain ⟨u, hu, hlower⟩ := List.mem_map.1 h
    exact ⟨u, hu, (proper_congr hlower).2 hw, hlower⟩
  · rintro ⟨u, hu, -, hlower⟩
    exact List.mem_map.2 ⟨u, hu, hlower⟩

end Vocabulary

/-- A word is shown if the vocabulary allows it, and replaced by its digest if not. -/
theorem segment_word (hw : (Segment.word w).Proper) :
    (Anonymizer.ofVocabulary v).segment (.word w) = if v.Allows w then w else digestOf w :=
  segment_eq_text hw

theorem url_word (hw : (Segment.word w).Proper) :
    (Anonymizer.ofVocabulary v).url w = if v.Allows w then w else digestOf w := by
  have hsplits : Splits w [.word w] :=
    ⟨by simp [Segment.text], List.forall_mem_singleton.2 hw, .singleton _⟩
  rw [Anonymizer.url, segments_of_splits hsplits, List.flatMap_singleton, segment_word hw]

/-- Vocabularies that show the same words, or words that are shown as they are anyway, rewrite
every text alike, and no others do. -/
theorem url_eq_iff :
    (∀ s, (Anonymizer.ofVocabulary v).url s = (Anonymizer.ofVocabulary v').url s) ↔
      ∀ w, (Segment.word w).Proper →
        (Bytes.lower w ∈ v.words ↔ Bytes.lower w ∈ v'.words) ∨ digestOf w = w := by
  constructor
  · intro h w hw
    have heq := h w
    rw [url_word hw, url_word hw] at heq
    rw [← Vocabulary.allows_iff_mem_words hw, ← Vocabulary.allows_iff_mem_words hw]
    by_cases hv : v.Allows w
    · by_cases hv' : v'.Allows w
      · exact .inl (iff_of_true hv hv')
      · rw [if_pos hv, if_neg hv'] at heq
        exact .inr heq.symm
    · by_cases hv' : v'.Allows w
      · rw [if_neg hv, if_pos hv'] at heq
        exact .inr heq
      · exact .inl (iff_of_false hv hv')
  · intro h s
    refine List.flatMap_congr fun x hx => ?_
    have hproper := (splits_segments s).proper x hx
    cases x with
    | separator b => rfl
    | word w =>
      rw [segment_word hproper, segment_word hproper]
      rcases h w hproper with hsame | hdigest
      · rw [← Vocabulary.allows_iff_mem_words hproper,
          ← Vocabulary.allows_iff_mem_words hproper] at hsame
        simp only [hsame]
      · rw [hdigest, ite_self, ite_self]

/-! ## The same words in other entries -/

namespace Vocabulary

/-- One list of entries written in another way : moved, with one repeated, with one in other
letters, or with one added that is empty or has a separator. -/
inductive Reworded : List Bytes → List Bytes → Prop
  | reorder {l m : List Bytes} (h : l.Perm m) : Reworded l m
  | repeated {l : List Bytes} {w : Bytes} (h : w ∈ l) : Reworded l (w :: l)
  | recased {l : List Bytes} {w u : Bytes} (h : Bytes.lower w = Bytes.lower u) :
      Reworded (w :: l) (u :: l)
  | added {l : List Bytes} {w : Bytes} (h : w = [] ∨ ∃ b ∈ w, isWordByte b = false) :
      Reworded l (w :: l)

/-- A word that cannot be cut out of any text is empty or holds a separator. -/
theorem not_proper_iff :
    ¬ (Segment.word w).Proper ↔ w = [] ∨ ∃ b ∈ w, isWordByte b = false := by
  simp only [Segment.Proper, not_and_or, not_not, not_forall, Bool.not_eq_true, exists_prop]

/-- The trusted domains have no part in the words. -/
theorem mem_words_mk {l d : List Bytes} :
    u ∈ words ⟨l, d⟩ ↔ ∃ w ∈ l, (Segment.word w).Proper ∧ Bytes.lower w = u :=
  Iff.rfl

/-- The words stay when the entries are written in another way. -/
theorem Reworded.words_eq {l m : List Bytes} (h : Reworded l m) (d d' : List Bytes) :
    words ⟨l, d⟩ = words ⟨m, d'⟩ := by
  ext x
  rw [mem_words_mk, mem_words_mk]
  cases h with
  | reorder h => simp only [h.mem_iff]
  | repeated h =>
    rw [List.exists_mem_cons_iff]
    exact ⟨.inr, fun hx => hx.elim (fun hw => ⟨_, h, hw⟩) id⟩
  | recased h => rw [List.exists_mem_cons_iff, List.exists_mem_cons_iff, proper_congr h, h]
  | added h =>
    rw [List.exists_mem_cons_iff]
    exact ⟨.inr, fun hx => hx.elim (fun hw => absurd hw.1 (not_proper_iff.2 h)) id⟩

/-- Rewordings of a list come to the same words that may be shown. -/
theorem words_eq_of_reworded {l m : List Bytes} (h : Relation.ReflTransGen Reworded l m)
    (d d' : List Bytes) : words ⟨l, d⟩ = words ⟨m, d'⟩ := by
  induction h with
  | refl => rfl
  | tail _ hstep ih => exact ih.trans (hstep.words_eq d' d')

end Vocabulary

/-- Every transform that asks the vocabulary gives the same. -/
structure Anonymizer.SameOutputs (a a' : Anonymizer) : Prop where
  url : ∀ s, a.url s = a'.url s
  csv : ∀ s, a.csv s = a'.csv s
  list : ∀ l, a.list l = a'.list l

theorem Anonymizer.SameOutputs.of_url {a a' : Anonymizer} (h : ∀ s, a.url s = a'.url s) :
    a.SameOutputs a' := by
  have hurl : a.url = a'.url := funext h
  exact ⟨h, fun s => by rw [Anonymizer.csv, hurl, Anonymizer.csv],
    fun l => by rw [Anonymizer.list, hurl, Anonymizer.list]⟩

/-- Vocabularies of the same words give the same outputs. So do those of which one has the
entries of the other, any number of times moved, repeated, put into other letters, or with
entries added that are no words. -/
theorem Vocabulary.same_outputs :
    (∀ v v' : Vocabulary, v.words = v'.words →
      (Anonymizer.ofVocabulary v).SameOutputs (Anonymizer.ofVocabulary v')) ∧
    ∀ l m d d' : List Bytes, Relation.ReflTransGen Reworded l m →
      (Anonymizer.ofVocabulary ⟨l, d⟩).SameOutputs (Anonymizer.ofVocabulary ⟨m, d'⟩) := by
  have hwords : ∀ v v' : Vocabulary, v.words = v'.words →
      (Anonymizer.ofVocabulary v).SameOutputs (Anonymizer.ofVocabulary v') := fun v v' h =>
    .of_url (url_eq_iff.2 fun w _ => .inl (by rw [h]))
  exact ⟨hwords, fun l m d d' h => hwords _ _ (words_eq_of_reworded h d d')⟩

/-- Two entries, and the same two moved, one of them in capitals and one repeated, with a key
between them that is no word. -/
theorem Vocabulary.same_outputs_moved :
    let l : List Bytes := ["api", "Svc"]
    let m : List Bytes := ["api", "k8s.io", "SVC", "api"]
    Relation.ReflTransGen Reworded l m ∧ words ⟨l, []⟩ = words ⟨m, ["x"]⟩ ∧
      (Anonymizer.ofVocabulary ⟨l, []⟩).SameOutputs (Anonymizer.ofVocabulary ⟨m, ["x"]⟩) ∧
      (Anonymizer.ofVocabulary ⟨m, ["x"]⟩).SameOutputs (Anonymizer.ofVocabulary ⟨l, []⟩) := by
  intro l m
  have hmoved : Reworded l ["Svc", "api"] := .reorder (.swap _ _ _)
  have hcased : Reworded ["Svc", "api"] ["SVC", "api"] := .recased (by decide)
  have hadded : Reworded ["SVC", "api"] ["k8s.io", "SVC", "api"] := .added (.inr (by decide))
  have hrepeated : Reworded ["k8s.io", "SVC", "api"] m := .repeated (by decide)
  have h : Relation.ReflTransGen Reworded l m :=
    (((Relation.ReflTransGen.single hmoved).tail hcased).tail hadded).tail hrepeated
  have hwords : words ⟨l, []⟩ = words ⟨m, ["x"]⟩ := words_eq_of_reworded h _ _
  exact ⟨h, hwords, same_outputs.2 _ _ _ _ h, same_outputs.1 _ _ hwords.symm⟩

end ClusterEvidence
