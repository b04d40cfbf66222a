import ApiCatalog.Proofs.Partition
import ApiCatalog.Proofs.Partition.Bytes
import Mathlib.Computability.Language

/-!
# The grammar of partition paths

Paths and references to entries as regular languages. Main statements: a text is a partition path
exactly if it is in the language of paths (`mem_path_iff`, `Partition.isPath_iff_mem`), and of what
is none the first piece that is no segment is reported (`Partition.fault_of_refused`).
-/
namespace ApiCatalog
namespace Grammar

open scoped Computability

/-- One character of a range. -/
def between (first last : Char) : Language Char := {s | ∃ c, s = [c] ∧ first ≤ c ∧ c ≤ last}

/-- In regular expressions, `[a-z0-9]`. -/
def alphanumeric : Language Char := between 'a' 'z' + between '0' '9'

/-- `[a-z0-9-]` -/
def inner : Language Char := alphanumeric + {['-']}

/-- `[a-z0-9]` or `[a-z0-9][a-z0-9-]*[a-z0-9]` -/
def segment : Language Char := alphanumeric + alphanumeric * inner∗ * alphanumeric

/-- A segment after a separator. -/
def below : Language Char := {[':']} * segment

def path : Language Char := segment * below∗

def rootedPath : Language Char := {"root".toList} * below∗

/-- A rooted path of two segments or more. -/
def entryReference : Language Char := {"root".toList} * (below * below∗)

variable {s t : List Char}

@[simp] theorem mem_singleton_iff : s ∈ ({t} : Language Char) ↔ s = t := Iff.rfl

section Segments

theorem mem_alphanumeric_iff : s ∈ alphanumeric ↔ ∃ c, s = [c] ∧ Alphanumeric c := by
  have either (c : Char) : Alphanumeric c ↔ 'a' ≤ c ∧ c ≤ 'z' ∨ '0' ≤ c ∧ c ≤ '9' := by
    rw [← isLabelChar_iff]
    simp [isLabelChar]
  rw [alphanumeric, Language.mem_add]
  constructor
  · rintro (⟨c, rfl, range⟩ | ⟨c, rfl, range⟩)
    · exact ⟨c, rfl, (either c).2 (.inl range)⟩
    · exact ⟨c, rfl, (either c).2 (.inr range)⟩
  · rintro ⟨c, rfl, label⟩
    rcases (either c).1 label with range | range
    · exact .inl ⟨c, rfl, range⟩
    · exact .inr ⟨c, rfl, range⟩

theorem mem_inner_iff : s ∈ inner ↔ ∃ c, s = [c] ∧ (Alphanumeric c ∨ c = '-') := by
  rw [inner, Language.mem_add, mem_alphanumeric_iff, mem_singleton_iff]
  constructor
  · rintro (⟨c, rfl, label⟩ | rfl)
    · exact ⟨c, rfl, .inl label⟩
    · exact ⟨'-', rfl, .inr rfl⟩
  · rintro ⟨c, rfl, label | rfl⟩
    · exact .inl ⟨c, rfl, label⟩
    · exact .inr rfl

theorem mem_inner_kstar_iff : s ∈ inner∗ ↔ ∀ c ∈ s, Alphanumeric c ∨ c = '-' := by
  constructor
  · rintro ⟨pieces, rfl, each⟩ c inside
    obtain ⟨piece, here, inside⟩ := List.mem_flatten.1 inside
    obtain ⟨d, rfl, passes⟩ := mem_inner_iff.1 (each piece here)
    rwa [List.mem_singleton.1 inside]
  · intro each
    refine ⟨s.map ([·]), ?_, ?_⟩
    · rw [← List.flatMap_def, List.flatMap_singleton']
    · intro piece here
      obtain ⟨c, inside, rfl⟩ := List.mem_map.1 here
      exact mem_inner_iff.2 ⟨c, rfl, each c inside⟩

/-- A segment is a letter or digit, or has one at either end and in between also hyphens. -/
theorem mem_segment_iff : s ∈ segment ↔ Segment s := by
  rw [segment, Language.mem_add]
  constructor
  · rintro (one | several)
    · obtain ⟨c, rfl, label⟩ := mem_alphanumeric_iff.1 one
      exact ⟨⟨c, [], rfl, label⟩, ⟨[], c, rfl, label⟩, List.forall_mem_singleton.2 (.inl label)⟩
    · obtain ⟨_, ⟨_, first, middle, each, rfl⟩, _, last, rfl⟩ := several
      obtain ⟨c, rfl, opens⟩ := mem_alphanumeric_iff.1 first
      obtain ⟨d, rfl, closes⟩ := mem_alphanumeric_iff.1 last
      refine ⟨⟨c, middle ++ [d], rfl, opens⟩, ⟨c :: middle, d, rfl, closes⟩, ?_⟩
      refine List.forall_mem_append.2 ⟨List.forall_mem_cons.2 ⟨.inl opens, ?_⟩, ?_⟩
      · exact mem_inner_kstar_iff.1 each
      · exact List.forall_mem_singleton.2 (.inl closes)
  · rintro ⟨⟨c, rest, rfl, opens⟩, ⟨front, d, split, closes⟩, each⟩
    cases front with
    | nil => exact .inl (mem_alphanumeric_iff.2 ⟨d, split, closes⟩)
    | cons c' middle =>
      obtain ⟨rfl, rfl⟩ := List.cons.inj split
      have inside : ∀ e ∈ middle, Alphanumeric e ∨ e = '-' := fun e here =>
        each e (List.mem_cons_of_mem _ (List.mem_append_left _ here))
      right
      refine Language.append_mem_mul (Language.append_mem_mul (a := [c]) ?_ ?_) ?_
      · exact mem_alphanumeric_iff.2 ⟨c, rfl, opens⟩
      · exact mem_inner_kstar_iff.2 inside
      · exact mem_alphanumeric_iff.2 ⟨d, rfl, closes⟩

end Segments

section Paths

theorem mem_below_iff : s ∈ below ↔ ∃ piece, s = ':' :: piece ∧ Segment piece := by
  constructor
  · rintro ⟨_, rfl, piece, one, rfl⟩
    exact ⟨piece, rfl, mem_segment_iff.1 one⟩
  · rintro ⟨piece, rfl, one⟩
    exact ⟨[':'], rfl, piece, mem_segment_iff.2 one, rfl⟩

theorem mem_below_kstar_iff :
    s ∈ below∗ ↔ ∃ pieces : List (List Char), s = pieces.flatMap (':' :: ·) ∧
      ∀ piece ∈ pieces, Segment piece := by
  constructor
  · rintro ⟨parts, rfl, each⟩
    induction parts with
    | nil => exact ⟨[], rfl, fun _ inside => (nomatch inside)⟩
    | cons part parts ih =>
      obtain ⟨here, later⟩ := List.forall_mem_cons.1 each
      obtain ⟨piece, rfl, one⟩ := mem_below_iff.1 here
      obtain ⟨pieces, same, segments⟩ := ih later
      refine ⟨piece :: pieces, ?_, List.forall_mem_cons.2 ⟨one, segments⟩⟩
      rw [List.flatten_cons, same, List.flatMap_cons]
  · rintro ⟨pieces, rfl, segments⟩
    refine ⟨pieces.map (':' :: ·), List.flatMap_def, fun part inside => ?_⟩
    obtain ⟨piece, here, rfl⟩ := List.mem_map.1 inside
    exact mem_below_iff.2 ⟨piece, rfl, segments piece here⟩

theorem mem_below_plus_iff :
    s ∈ below * below∗ ↔ ∃ pieces : List (List Char), pieces ≠ [] ∧
      s = pieces.flatMap (':' :: ·) ∧ ∀ piece ∈ pieces, Segment piece := by
  constructor
  · rintro ⟨_, one, _, more, rfl⟩
    obtain ⟨piece, rfl, first⟩ := mem_below_iff.1 one
    obtain ⟨pieces, rfl, others⟩ := mem_below_kstar_iff.1 more
    exact ⟨piece :: pieces, List.cons_ne_nil _ _, rfl, List.forall_mem_cons.2 ⟨first, others⟩⟩
  · rintro ⟨pieces, filled, rfl, segments⟩
    obtain ⟨piece, others, rfl⟩ := List.exists_cons_of_ne_nil filled
    obtain ⟨first, later⟩ := List.forall_mem_cons.1 segments
    exact Language.append_mem_mul (mem_below_iff.2 ⟨piece, rfl, first⟩)
      (mem_below_kstar_iff.2 ⟨others, rfl, later⟩)

/-- The pieces of a text that starts with a segment and goes on with segments after separators. -/
theorem separated_eq_cons_iff {first : List Char} {others : List (List Char)}
    (segments : ∀ piece ∈ first :: others, Segment piece) :
    Text.separated ':' s = first :: others ↔ s = first ++ others.flatMap (':' :: ·) := by
  rw [← Text.joined_eq_append_flatMap]
  constructor
  · intro pieces
    rw [← pieces, Text.joined_separated]
  · rintro rfl
    exact Text.separated_joined (List.cons_ne_nil first others) fun piece inside =>
      (segments piece inside).colon_not_mem

/-- A text is a path exactly if all its pieces between separators are segments. -/
theorem mem_path_iff : s ∈ path ↔ ∀ piece ∈ Text.separated ':' s, Segment piece := by
  constructor
  · rintro ⟨first, one, _, others, rfl⟩
    obtain ⟨pieces, rfl, segments⟩ := mem_below_kstar_iff.1 others
    have all := List.forall_mem_cons.2 ⟨mem_segment_iff.1 one, segments⟩
    rwa [(separated_eq_cons_iff all).2 rfl]
  · intro all
    obtain ⟨first, others, pieces⟩ :=
      List.exists_cons_of_ne_nil (Text.separated_ne_nil ':' s)
    rw [pieces] at all
    obtain ⟨one, segments⟩ := List.forall_mem_cons.1 all
    rw [(separated_eq_cons_iff all).1 pieces]
    exact Language.append_mem_mul (mem_segment_iff.2 one)
      (mem_below_kstar_iff.2 ⟨others, rfl, segments⟩)

theorem segment_root : Segment "root".toList := by decide +kernel

/-- Below the root there are the pieces of the rest. -/
theorem mem_root_mul_iff {l : Language Char} {admitted : List (List Char) → Prop}
    (rest : ∀ t, t ∈ l ↔ ∃ pieces : List (List Char), admitted pieces ∧
      t = pieces.flatMap (':' :: ·) ∧ ∀ piece ∈ pieces, Segment piece) :
    s ∈ {"root".toList} * l ↔ ∃ others, admitted others ∧
      Text.separated ':' s = "root".toList :: others ∧ ∀ piece ∈ others, Segment piece := by
  constructor
  · rintro ⟨_, rfl, more, inside, rfl⟩
    obtain ⟨others, admits, rfl, segments⟩ := (rest more).1 inside
    have all := List.forall_mem_cons.2 ⟨segment_root, segments⟩
    exact ⟨others, admits, (separated_eq_cons_iff all).2 rfl, segments⟩
  · rintro ⟨others, admits, pieces, segments⟩
    have all := List.forall_mem_cons.2 ⟨segment_root, segments⟩
    rw [(separated_eq_cons_iff all).1 pieces]
    exact Language.append_mem_mul rfl ((rest _).2 ⟨others, admits, rfl, segments⟩)

theorem mem_rootedPath_iff :
    s ∈ rootedPath ↔ ∃ others, Text.separated ':' s = "root".toList :: others ∧
      ∀ piece ∈ others, Segment piece := by
  have any (t : List Char) : t ∈ below∗ ↔ ∃ pieces : List (List Char), True ∧
      t = pieces.flatMap (':' :: ·) ∧ ∀ piece ∈ pieces, Segment piece := by
    simp only [true_and, mem_below_kstar_iff]
  rw [rootedPath, mem_root_mul_iff any]
  simp only [true_and]

theorem mem_entryReference_iff :
    s ∈ entryReference ↔ ∃ others, others ≠ [] ∧
      Text.separated ':' s = "root".toList :: others ∧ ∀ piece ∈ others, Segment piece :=
  mem_root_mul_iff fun _ => mem_below_plus_iff

end Paths
end Grammar

namespace Partition

theorem isPath_iff_mem {text : String} : IsPath text ↔ text.toList ∈ Grammar.path := by
  rw [isPath_iff, Grammar.mem_path_iff]
  rfl

theorem isPath_iff_bytes {text : String} :
    IsPath text ↔ ∀ piece ∈ pathSegments text, isSegmentBytes (Text.utf8 piece) = true := by
  simp only [IsPath, List.all_eq_true, isSegment_eq_bytes]

theorem isRooted_iff {p : Partition} : p.isRooted = true ↔ p.path.toList ∈ Grammar.rootedPath := by
  rw [isRooted, beq_iff_eq, List.head?_eq_some_iff, Grammar.mem_rootedPath_iff]
  constructor
  · rintro ⟨others, pieces⟩
    have segments : ∀ piece ∈ p.segments, Segment piece := isPath_iff.1 p.valid
    rw [pieces] at segments
    exact ⟨others, pieces, (List.forall_mem_cons.1 segments).2⟩
  · rintro ⟨others, pieces, -⟩
    exact ⟨others, pieces⟩

theorem accepted_iff {text : String} : (∃ p, ofString text = .ok p) ↔ IsPath text := by
  constructor
  · rintro ⟨p, accepted⟩
    exact ofString_eq_ok_iff.1 accepted ▸ p.valid
  · intro valid
    exact ⟨_, ofString_of_isPath valid⟩

/-- The first piece that is no segment has only segments before it. -/
theorem exists_first_fault {text : String} (invalid : ¬IsPath text) :
    ∃ before bad after, pathSegments text = before ++ bad :: after ∧
      (∀ piece ∈ before, Segment piece) ∧ ¬Segment bad ∧
      (pathSegments text).find? (!isSegment ·) = some bad := by
  obtain ⟨bad, found⟩ : ∃ bad, (pathSegments text).find? (!isSegment ·) = some bad := by
    rw [← Option.isSome_iff_exists, List.find?_isSome]
    simpa [IsPath] using invalid
  obtain ⟨refused, before, after, pieces, passed⟩ := List.find?_eq_some_iff_append.1 found
  refine ⟨before, bad, after, pieces, fun piece inside => ?_, ?_, found⟩
  · simpa [isSegment_iff] using passed piece inside
  · simpa [← isSegment_iff] using refused

/-- What is refused is empty, or its first piece that is no segment is reported. -/
theorem fault_of_refused {text : String} {e : PathError} (refused : ofString text = .error e) :
    text = "" ∧ e = ⟨text, .empty⟩ ∨
      ∃ before bad after, pathSegments text = before ++ bad :: after ∧
        (∀ piece ∈ before, Segment piece) ∧ ¬Segment bad ∧
        e = ⟨text, .segment (String.ofList bad)⟩ := by
  rw [ofString] at refused
  split at refused
  next empty =>
    cases refused
    exact .inl ⟨empty, rfl⟩
  · split at refused
    · cases refused
    next invalid =>
      obtain ⟨before, bad, after, pieces, segments, fault, found⟩ := exists_first_fault invalid
      rw [found] at refused
      cases refused
      exact .inr ⟨before, bad, after, pieces, segments, fault, rfl⟩

end Partition
end ApiCatalog
