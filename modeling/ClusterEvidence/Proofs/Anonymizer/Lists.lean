import ClusterEvidence.Proofs.Anonymizer.Words

/-!
# Lists of values

A value that holds a list is rewritten element by element, a plain one as a whole, and whether
a value is a list is nothing that its text tells. It makes no difference. A separator ends the
word before it and starts no other, so a text is split there into the words of both sides
(`Splits.append_separator`) and rewritten side by side (`url_append_separator`). What stands in
place of a word has bytes of words only, so no separator comes in that was not there
(`mem_of_mem_url`). Hence the rewritten text has the rewritten elements at any separator
(`pieces_url`), and at commas in particular (`csv_elementwise`).
-/

namespace ClusterEvidence

variable {s t : Bytes} {b : UInt8} {l m : List Segment}

/-! ## Splitting at a separator -/

/-- Both sides of a separator are split by themselves. -/
theorem Splits.append_separator (hs : Splits s l) (ht : Splits t m) (hb : isWordByte b = false) :
    Splits (s ++ b :: t) (l ++ .separator b :: m) := by
  refine ⟨?_, fun x hx => ?_, ?_⟩
  · rw [List.flatMap_append, List.flatMap_cons, hs.text, ht.text]
    rfl
  · rcases List.mem_append.1 hx with hx | hx
    · exact hs.proper x hx
    · rcases List.mem_cons.1 hx with rfl | hx
      · exact hb
      · exact ht.proper x hx
  · refine List.isChain_append.2 ⟨hs.longest, List.isChain_cons.2 ⟨?_, ht.longest⟩, ?_⟩
    · rintro y - ⟨hword, -⟩
      cases hword
    · rintro x - y hy ⟨-, hword⟩
      obtain rfl := Option.some.inj hy
      cases hword

/-- A separator is a cut on its own, wherever it stands. -/
theorem segments_append_separator (hb : isWordByte b = false) (s t : Bytes) :
    segments (s ++ b :: t) = segments s ++ .separator b :: segments t :=
  segments_of_splits ((splits_segments s).append_separator (splits_segments t) hb)

namespace Anonymizer

variable (a : Anonymizer)

/-! ## Rewriting at a separator -/

/-- Both sides of a separator are rewritten by themselves. -/
theorem url_append_separator (hb : isWordByte b = false) (s t : Bytes) :
    a.url (s ++ b :: t) = a.url s ++ b :: a.url t := by
  rw [url, segments_append_separator hb, List.flatMap_append, List.flatMap_cons]
  rfl

variable {a}

/-- What stands in place of a part has no separator but the part itself. -/
theorem mem_segment {x : Segment} (hx : x.Proper) (hb : isWordByte b = false)
    (h : b ∈ a.segment x) : b ∈ x.text := by
  cases x with
  | word w =>
    change b ∈ if a.allows w then w else digestOf w at h
    split at h
    · exact h
    · have hword := isWordByte_of_isHexDigit (isHexDigit_of_mem_digestOf h)
      exact absurd (hb.symm.trans hword) Bool.false_ne_true
  | separator c => exact h

/-- The separators of a rewritten text are those of the text. -/
theorem mem_of_mem_url (hb : isWordByte b = false) (h : b ∈ a.url s) : b ∈ s := by
  have hsplits := splits_segments s
  obtain ⟨x, hx, hbx⟩ := List.mem_flatMap.1 h
  rw [← hsplits.text]
  exact List.mem_flatMap.2 ⟨x, hx, mem_segment (hsplits.proper x hx) hb hbx⟩

variable (a)

/-! ## Rewriting elements -/

/-- Elements are rewritten by themselves. -/
theorem url_join (hb : isWordByte b = false) :
    ∀ ps : List Bytes, a.url (Bytes.join [b] ps) = Bytes.join [b] (ps.map a.url)
  | [] => rfl
  | [p] => rfl
  | p :: q :: ps => by
    show a.url (p ++ [b] ++ Bytes.join [b] (q :: ps)) =
      a.url p ++ [b] ++ Bytes.join [b] ((q :: ps).map a.url)
    rw [← url_join hb (q :: ps), List.append_assoc, List.append_assoc, List.singleton_append,
      List.singleton_append, url_append_separator a hb]

/-- The elements of a rewritten text are the rewritten elements. -/
theorem pieces_url (hb : isWordByte b = false) (s : Bytes) :
    Bytes.pieces b (a.url s) = (Bytes.pieces b s).map a.url := by
  have hjoin : a.url s = Bytes.join [b] ((Bytes.pieces b s).map a.url) := by
    rw [← url_join a hb, Bytes.join_pieces]
  rw [hjoin]
  refine Bytes.pieces_join (by simpa using Bytes.pieces_ne_nil b s) fun p hp => ?_
  obtain ⟨q, hq, rfl⟩ := List.mem_map.1 hp
  exact fun hmem => Bytes.notMem_of_mem_pieces hq (mem_of_mem_url hb hmem)

theorem csv_eq_url (s : Bytes) : a.csv s = a.url s := by
  rw [csv, ← url_join a (by decide), Bytes.join_pieces]

/-- Rewriting a comma separated list element by element is rewriting it as a whole. The result
has as many elements as the list, each of them the rewritten one, empty ones included. -/
theorem csv_elementwise (s : Bytes) :
    a.csv s = a.url s ∧ Bytes.pieces 0x2c (a.csv s) = (Bytes.pieces 0x2c s).map a.url := by
  rw [csv_eq_url]
  exact ⟨rfl, pieces_url a (by decide) s⟩

end Anonymizer

end ClusterEvidence
