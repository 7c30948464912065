import ClusterEvidence.Anonymizer
import ClusterEvidence.Proofs.Bytes
import Mathlib.Data.List.Chain

/-!
# Words of a rewritten text

`Splits s l` says what it is to cut the text `s` into words and separators, without saying how
it is done : the parts `l` make up the text, each is what it claims to be, and no two words
stand side by side, so every word is as long as it can be. There is one such list for every
text, and `segments` finds it (`splits_iff`).

A digest is eight hexadecimal digits (`length_digestOf`, `isHexDigit_of_mem_digestOf`), which is
a word again. So what `Anonymizer.url` puts in place of a word runs into nothing beside it, and
the rewritten text is cut at the same places as the text it came from, with the same separators
(`url_splits`).
-/

namespace ClusterEvidence

/-! ## Splitting -/

namespace Segment

/-- The bytes of a part. -/
def text : Segment → Bytes
  | word w => w
  | separator b => [b]

/-- The part is a word. -/
def isWord : Segment → Bool
  | word _ => true
  | separator _ => false

/-- The byte of a separator. -/
def separator? : Segment → Option UInt8
  | word _ => none
  | separator b => some b

/-- A word has bytes of words only, and one at least; any other byte is a separator. -/
def Proper : Segment → Prop
  | word w => w ≠ [] ∧ ∀ b ∈ w, isWordByte b = true
  | separator b => isWordByte b = false

end Segment

/-- The parts are the words and separators of the text : no word could be any longer. -/
structure Splits (s : Bytes) (l : List Segment) : Prop where
  text : l.flatMap Segment.text = s
  proper : ∀ x ∈ l, x.Proper
  longest : l.IsChain fun x y => ¬(x.isWord = true ∧ y.isWord = true)

variable {s t w : Bytes} {b : UInt8} {x : Segment} {l : List Segment}

/-- No word stands in front of the rest that could be joined to a word before it. -/
theorem segments_word (hw : (Segment.word w).Proper)
    (ht : ∀ y ∈ (segments t).head?, y.isWord = false) :
    segments (w ++ t) = .word w :: segments t := by
  obtain ⟨hne, hbytes⟩ := hw
  induction w with
  | nil => exact absurd rfl hne
  | cons b w ih =>
    obtain ⟨hb, hw⟩ := List.forall_mem_cons.1 hbytes
    cases w with
    | nil =>
      show Segment.cons b (segments t) = _
      unfold Segment.cons
      rw [if_pos hb]
      split
      · next v rest hrest => cases ht (.word v) (by rw [hrest]; rfl)
      · rfl
    | cons c w =>
      show Segment.cons b (segments (c :: w ++ t)) = _
      rw [ih (List.cons_ne_nil c w) hw, Segment.cons, if_pos hb]

theorem segments_separator (hb : isWordByte b = false) (t : Bytes) :
    segments (b :: t) = .separator b :: segments t := by
  show Segment.cons b (segments t) = _
  unfold Segment.cons
  rw [if_neg (by simp [hb])]

/-- A part that does not run into what follows is cut off. -/
theorem segments_append (hx : x.Proper)
    (ht : ∀ y ∈ (segments t).head?, ¬(x.isWord = true ∧ y.isWord = true)) :
    segments (x.text ++ t) = x :: segments t := by
  cases x with
  | word w => exact segments_word hx fun y hy => by simpa using fun h => ht y hy ⟨rfl, h⟩
  | separator b => exact segments_separator hx t

/-- There is no other way to split a text. -/
theorem segments_of_splits (h : Splits s l) : segments s = l := by
  obtain ⟨rfl, hproper, hlongest⟩ := h
  induction l with
  | nil => rfl
  | cons x l ih =>
    obtain ⟨hx, hl⟩ := List.forall_mem_cons.1 hproper
    have hrest : segments (l.flatMap Segment.text) = l := ih hl hlongest.tail
    rw [List.flatMap_cons, segments_append hx, hrest]
    rw [hrest]
    exact (List.isChain_cons.1 hlongest).1

/-- A byte in front makes the first word longer or is a separator of its own. -/
theorem splits_cons (b : UInt8) (h : Splits s l) : Splits (b :: s) (Segment.cons b l) := by
  obtain ⟨rfl, hproper, hlongest⟩ := h
  unfold Segment.cons
  split
  · next hb =>
    split
    · next w rest =>
      obtain ⟨⟨-, hw⟩, hrest⟩ := List.forall_mem_cons.1 hproper
      obtain ⟨hhead, htail⟩ := List.isChain_cons.1 hlongest
      exact ⟨rfl, List.forall_mem_cons.2
          ⟨⟨List.cons_ne_nil b w, List.forall_mem_cons.2 ⟨hb, hw⟩⟩, hrest⟩,
        List.isChain_cons.2 ⟨hhead, htail⟩⟩
    · next hnotWord =>
      refine ⟨rfl, List.forall_mem_cons.2 ⟨⟨List.cons_ne_nil b [], by simpa using hb⟩, hproper⟩,
        List.isChain_cons.2 ⟨?_, hlongest⟩⟩
      rintro (w | c) hhead ⟨-, hw⟩
      · obtain ⟨rest, rfl⟩ := List.head?_eq_some_iff.1 hhead
        exact hnotWord w rest rfl
      · cases hw
  · next hb =>
    refine ⟨rfl, List.forall_mem_cons.2 ⟨by simpa [Segment.Proper] using hb, hproper⟩,
      List.isChain_cons.2 ⟨?_, hlongest⟩⟩
    rintro y - ⟨hw, -⟩
    cases hw

/-- What `segments` cuts a text into are its words and separators. -/
theorem splits_segments : ∀ s : Bytes, Splits s (segments s)
  | [] => ⟨rfl, List.forall_mem_nil _, .nil⟩
  | b :: s => splits_cons b (splits_segments s)

/-- The words and separators of a text are what `segments` says. -/
theorem splits_iff : Splits s l ↔ l = segments s :=
  ⟨fun h => (segments_of_splits h).symm, fun h => h ▸ splits_segments s⟩

/-! ## Digests -/

/-- The ASCII digits and the small letters from `a` to `f`. -/
def isHexDigit (b : UInt8) : Bool := (0x30 ≤ b && b ≤ 0x39) || (0x61 ≤ b && b ≤ 0x66)

theorem isWordByte_of_isHexDigit (h : isHexDigit b = true) : isWordByte b = true := by
  simp only [isHexDigit, isWordByte, Bool.or_eq_true, Bool.and_eq_true, decide_eq_true_eq] at h ⊢
  rcases h with h | ⟨hlow, hhigh⟩
  · exact .inl (.inl (.inr h))
  · exact .inr ⟨hlow, UInt8.le_trans hhigh (by decide)⟩

theorem isHexDigit_of_mem_digestOf (h : b ∈ digestOf s) : isHexDigit b = true := by
  obtain ⟨c, -, hc⟩ := List.mem_flatMap.1 (List.mem_of_mem_take h)
  exact Bytes.of_mem_hex (P := fun d => isHexDigit d = true) (by decide +kernel) hc

theorem length_digest (s : Bytes) : (Sha256.digest s).length = 32 := rfl

/-- Eight digits stand for a word. -/
theorem length_digestOf (s : Bytes) : (digestOf s).length = 8 := by
  have hhex : ((Sha256.digest s).flatMap Bytes.hex).length = 64 := by
    have hpair : ∀ c ∈ Sha256.digest s, (Bytes.hex c).length = 2 := fun c _ => rfl
    rw [List.length_flatMap, List.map_congr_left hpair, List.map_const', List.sum_replicate_nat,
      length_digest]
  rw [digestOf, List.length_take, hhex]
  rfl

/-! ## Rewriting -/

/-- The word is in the vocabulary, whatever its case. -/
def Vocabulary.Allows (v : Vocabulary) (w : Bytes) : Prop :=
  Bytes.lower w ∈ v.allowedWords.map Bytes.lower

instance (v : Vocabulary) (w : Bytes) : Decidable (v.Allows w) :=
  inferInstanceAs (Decidable (_ ∈ _))

/-- A word that is not in the vocabulary gives way to the start of its digest in hexadecimal
digits; separators stay. -/
def Vocabulary.rewrite (v : Vocabulary) : Segment → Segment
  | .word w => .word (if v.Allows w then w else ((Sha256.digest w).flatMap Bytes.hex).take 8)
  | .separator b => .separator b

variable {v : Vocabulary}

/-- An empty entry of the vocabulary allows no word. -/
theorem allows_ofVocabulary (hw : w ≠ []) :
    (Anonymizer.ofVocabulary v).allows w = true ↔ v.Allows w := by
  simp only [Anonymizer.allows, Anonymizer.ofVocabulary, Vocabulary.Allows, List.contains_iff_mem,
    List.mem_map, List.mem_filter]
  constructor
  · rintro ⟨u, ⟨hu, -⟩, heq⟩
    exact ⟨u, hu, heq⟩
  · rintro ⟨u, hu, heq⟩
    refine ⟨u, ⟨hu, ?_⟩, heq⟩
    have hne : u ≠ [] := by
      rintro rfl
      exact hw (List.map_eq_nil_iff.1 heq.symm)
    simpa using hne

/-- A word or separator is rewritten as the vocabulary says. -/
theorem segment_eq_text (hx : x.Proper) :
    (Anonymizer.ofVocabulary v).segment x = (v.rewrite x).text := by
  cases x with
  | word w =>
    simp only [Anonymizer.segment, Vocabulary.rewrite, Segment.text, allows_ofVocabulary hx.1]
    rfl
  | separator b => rfl

@[simp] theorem isWord_rewrite (x : Segment) : (v.rewrite x).isWord = x.isWord := by
  cases x with
  | word w => rfl
  | separator b => rfl

@[simp] theorem separator?_rewrite (x : Segment) : (v.rewrite x).separator? = x.separator? := by
  cases x with
  | word w => rfl
  | separator b => rfl

/-- A word gives way to a word. -/
theorem Segment.Proper.rewrite (hx : x.Proper) : (v.rewrite x).Proper := by
  cases x with
  | word w =>
    show Segment.Proper (.word (if _ then _ else _))
    split
    · exact hx
    · refine ⟨fun h => ?_, fun b hb => isWordByte_of_isHexDigit (isHexDigit_of_mem_digestOf hb)⟩
      have hlength := length_digestOf w
      rw [show digestOf w = [] from h] at hlength
      cases hlength
  | separator b => exact hx

/-- The rewritten text is cut where the text was. -/
theorem splits_url (h : Splits s l) :
    Splits ((Anonymizer.ofVocabulary v).url s) (l.map v.rewrite) := by
  refine ⟨?_, ?_, ?_⟩
  · rw [Anonymizer.url, segments_of_splits h, List.flatMap_map]
    exact List.flatMap_congr fun x hx => (segment_eq_text (h.proper x hx)).symm
  · intro y hy
    obtain ⟨x, hx, rfl⟩ := List.mem_map.1 hy
    exact (h.proper x hx).rewrite
  · rw [List.isChain_map]
    simpa using h.longest

/-- A text has one split, and the rewritten text the same one with its words rewritten : the
separators are those of the text, in their order, and every word is one of the vocabulary or
eight hexadecimal digits. -/
theorem url_splits (v : Vocabulary) (s : Bytes) : ∃ l,
    (∀ m, Splits s m ↔ m = l) ∧
    (∀ m, Splits ((Anonymizer.ofVocabulary v).url s) m ↔ m = l.map v.rewrite) ∧
    (l.map v.rewrite).filterMap Segment.separator? = l.filterMap Segment.separator? ∧
    ∀ w, .word w ∈ l.map v.rewrite →
      v.Allows w ∨ (w.length = 8 ∧ ∀ b ∈ w, isHexDigit b = true) := by
  refine ⟨segments s, fun m => splits_iff, fun m => ?_, ?_, fun w hw => ?_⟩
  · rw [splits_iff, segments_of_splits (splits_url (splits_segments s))]
  · rw [List.filterMap_map]
    exact List.filterMap_congr fun x _ => separator?_rewrite x
  · obtain ⟨x, -, hx⟩ := List.mem_map.1 hw
    cases x with
    | word u =>
      have hw : (if v.Allows u then u else digestOf u) = w := Segment.word.inj hx
      split at hw
      · next hu => exact .inl (hw ▸ hu)
      · exact .inr ⟨hw ▸ length_digestOf u, fun b hb => isHexDigit_of_mem_digestOf (hw ▸ hb)⟩
    | separator b => cases hx

end ClusterEvidence
