import ApiCatalog.Partition

/-!
# Reading, extending and splitting partition paths

A text is read as a partition exactly if it is a path of segments, and the partition then has that
path. Main statement: a path is extended by any path of segments, and splitting takes this back
exactly if it is a single segment (`split_undoes_join_iff`). So a path can be extended by two
segments at once, which splitting does not take back (`extended_by_two`). What a path splits into is
joined to it again (`parts_of_split`).
-/
namespace ApiCatalog

/-- What may stand at both ends of a segment. -/
def Alphanumeric (c : Char) : Prop := c.isLower ∨ c.isDigit

/-- Lower-case ASCII letters, digits and hyphens, with a letter or digit at both ends. -/
structure Segment (s : List Char) : Prop where
  first : ∃ c rest, s = c :: rest ∧ Alphanumeric c
  last : ∃ rest c, s = rest ++ [c] ∧ Alphanumeric c
  each : ∀ c ∈ s, Alphanumeric c ∨ c = '-'

section Segments

theorem isLabelChar_iff {c : Char} : isLabelChar c = true ↔ Alphanumeric c := by
  have lower : c.isLower = (decide ('a' ≤ c) && decide (c ≤ 'z')) := rfl
  simp [isLabelChar, Alphanumeric, lower, Char.isDigit, Char.le_def]

theorem isSegment_iff {s : List Char} : isSegment s = true ↔ Segment s := by
  simp only [isSegment, Bool.and_eq_true, List.all_eq_true, Bool.or_eq_true, beq_iff_eq,
    isLabelChar_iff, Option.any_eq_true]
  constructor
  · rintro ⟨⟨⟨c, first, opens⟩, d, last, closes⟩, each⟩
    obtain ⟨rest, rfl⟩ := List.head?_eq_some_iff.1 first
    obtain ⟨front, same⟩ := List.getLast?_eq_some_iff.1 last
    exact ⟨⟨c, rest, rfl, opens⟩, ⟨front, d, same, closes⟩, each⟩
  · rintro ⟨⟨c, rest, first, opens⟩, ⟨front, d, last, closes⟩, each⟩
    exact ⟨⟨⟨c, by rw [first]; rfl, opens⟩, d, by rw [last]; simp, closes⟩, each⟩

instance (s : List Char) : Decidable (Segment s) := decidable_of_iff _ isSegment_iff

/-- The separator of paths is not in a segment. -/
theorem Segment.colon_not_mem {s : List Char} (segment : Segment s) : ':' ∉ s := by
  intro inside
  rcases segment.each ':' inside with (lower | digit) | hyphen
  · revert lower
    decide
  · revert digit
    decide
  · revert hyphen
    decide

theorem isPath_iff {path : String} : IsPath path ↔ ∀ s ∈ pathSegments path, Segment s := by
  simp only [IsPath, List.all_eq_true, isSegment_iff]

theorem pathSegments_append (path child : String) :
    pathSegments (path ++ ":" ++ child) = pathSegments path ++ pathSegments child := by
  rw [pathSegments, String.toList_append, String.toList_append, List.append_assoc]
  exact Text.separated_append ':' path.toList child.toList

/-- A segment is a path of its own. -/
theorem Segment.pathSegments_eq {c : String} (segment : Segment c.toList) :
    pathSegments c = [c.toList] :=
  Text.separated_of_not_mem segment.colon_not_mem

end Segments

namespace Partition

theorem ofString_of_isPath {path : String} (valid : IsPath path) :
    ofString path = .ok ⟨path, valid⟩ := by
  have rooted : path ≠ "" := by
    rintro rfl
    revert valid
    decide +kernel
  rw [ofString, if_neg rooted, dif_pos valid]

theorem ofString_of_not_isPath {path : String} (invalid : ¬IsPath path) :
    ∃ e, ofString path = .error e := by
  rw [ofString, dif_neg invalid]
  split
  · exact ⟨_, rfl⟩
  · exact ⟨_, rfl⟩

theorem ofString_eq_ok_iff {path : String} {p : Partition} :
    ofString path = .ok p ↔ p.path = path := by
  constructor
  · intro accepted
    by_cases valid : IsPath path
    · rw [ofString_of_isPath valid] at accepted
      cases accepted
      rfl
    · obtain ⟨e, refused⟩ := ofString_of_not_isPath valid
      rw [refused] at accepted
      cases accepted
  · rintro rfl
    exact ofString_of_isPath p.valid

section Children

variable {p q : Partition} {c : String}

theorem join_eq_ok_iff : p.join c = .ok q ↔ q.path = p.path ++ ":" ++ c := ofString_eq_ok_iff

/-- A path is extended by what is a path itself. -/
theorem join_isPath_iff (p : Partition) (c : String) :
    (∃ q, p.join c = .ok q) ↔ IsPath c := by
  have extended : IsPath (p.path ++ ":" ++ c) ↔ IsPath c := by
    simp only [isPath_iff, pathSegments_append, List.forall_mem_append]
    exact and_iff_right (isPath_iff.1 p.valid)
  rw [← extended]
  constructor
  · rintro ⟨q, joined⟩
    exact join_eq_ok_iff.1 joined ▸ q.valid
  · intro valid
    exact ⟨⟨_, valid⟩, join_eq_ok_iff.2 rfl⟩

/-- The segments of an extended path. -/
theorem segments_of_join (joined : p.join c = .ok q) :
    q.segments = p.segments ++ pathSegments c := by
  rw [segments, join_eq_ok_iff.1 joined]
  exact pathSegments_append p.path c

theorem segments_ne_nil (p : Partition) : p.segments ≠ [] := Text.separated_ne_nil _ _

theorem path_of_segments (p : Partition) : p.path = String.ofList (Text.joined ':' p.segments) := by
  rw [segments, pathSegments, Text.joined_separated, String.ofList_toList]

/-- The last segment of a path is one. -/
theorem base_segment (p : Partition) : Segment p.base.toList := by
  have last : p.segments.getLast p.segments_ne_nil ∈ p.segments := List.getLast_mem _
  rw [base, List.getLast?_eq_some_getLast p.segments_ne_nil, Option.getD_some, String.toList_ofList]
  exact isPath_iff.1 p.valid _ last

/-- A path extended by a segment has the segment and the path as its parts. -/
theorem parts_of_join (joined : p.join c = .ok q) (segment : Segment c.toList) :
    q.base = c ∧ q.parent? = some p := by
  have segments : q.segments = p.segments ++ [c.toList] :=
    segment.pathSegments_eq ▸ segments_of_join joined
  constructor
  · rw [base, segments, List.getLast?_concat, Option.getD_some, String.ofList_toList]
  · rw [parent?, segments, List.dropLast_concat]
    split
    next none => exact absurd none p.segments_ne_nil
    next above _ =>
      rw [← path_of_segments, ofString_eq_ok_iff.2 rfl]
      rfl

/-- A path of several segments has parts, which joined give the path again. -/
theorem join_of_split (several : 1 < q.segments.length) :
    ∃ p, q.parent? = some p ∧ p.join q.base = .ok q := by
  have filled : q.segments.dropLast ≠ [] := by
    intro none
    have length := congrArg List.length none
    rw [List.length_dropLast, List.length_nil] at length
    omega
  have ending : q.segments.dropLast ++ [q.base.toList] = q.segments := by
    rw [base, List.getLast?_eq_some_getLast q.segments_ne_nil, Option.getD_some,
      String.toList_ofList]
    exact List.dropLast_concat_getLast q.segments_ne_nil
  have whole : q.path =
      String.ofList (Text.joined ':' q.segments.dropLast) ++ ":" ++ q.base := by
    rw [path_of_segments, ← ending, Text.joined_concat filled, List.dropLast_concat]
    rw [String.ext_iff]
    simp
  have valid : IsPath (String.ofList (Text.joined ':' q.segments.dropLast)) := by
    have valid := isPath_iff.1 q.valid
    rw [whole, pathSegments_append] at valid
    exact isPath_iff.2 (List.forall_mem_append.1 valid).1
  refine ⟨⟨_, valid⟩, ?_, join_eq_ok_iff.2 whole⟩
  rw [parent?]
  split
  next none => exact absurd none filled
  next above same => rw [ofString_of_isPath valid]; rfl

theorem parent?_of_single (single : q.segments.length = 1) : q.parent? = none := by
  obtain ⟨segment, only⟩ := List.length_eq_one_iff.1 single
  rw [parent?, only]
  rfl

theorem several_of_split (split : q.split? = some (p, c)) : 1 < q.segments.length := by
  have filled := List.length_pos_iff.2 q.segments_ne_nil
  have not_single : q.segments.length ≠ 1 := by
    intro single
    rw [split?, parent?_of_single single] at split
    cases split
  omega

/-- A path that splits is its parts joined, and the upper one starts as it does. -/
theorem parts_of_split (split : q.split? = some (p, c)) :
    p.path ++ ":" ++ c = q.path ∧ Segment c.toList ∧ p.isRooted = q.isRooted := by
  obtain ⟨above, parent, joined⟩ := join_of_split (several_of_split split)
  rw [split?, parent] at split
  cases split
  refine ⟨(join_eq_ok_iff.1 joined).symm, q.base_segment, ?_⟩
  have segments : q.segments = p.segments ++ [q.base.toList] :=
    q.base_segment.pathSegments_eq ▸ segments_of_join joined
  obtain ⟨first, others, pieces⟩ := List.exists_cons_of_ne_nil p.segments_ne_nil
  rw [isRooted, isRooted, segments, pieces]
  rfl

theorem exists_split (several : 1 < q.segments.length) :
    ∃ p c, q.split? = some (p, c) := by
  obtain ⟨p, parent, -⟩ := join_of_split several
  exact ⟨p, q.base, by rw [split?, parent]; rfl⟩

end Children

/-- A path is extended by all that is between separators a list of segments, and by nothing else.
Splitting gives the path and the extension back exactly if this is a single segment, and so it is
where it has no separator. A path of several segments splits into a path and a segment that joined
give it again, and a path of one segment does not split. -/
theorem split_undoes_join_iff (p : Partition) (c : String) :
    ((∃ q, p.join c = .ok q) ↔ ∀ s ∈ pathSegments c, Segment s) ∧
    (':' ∉ c.toList → ((∃ q, p.join c = .ok q) ↔ Segment c.toList)) ∧
    (∀ q, p.join c = .ok q →
      (q.base = c ∧ q.parent? = some p ∧ q.split? = some (p, c) ↔ Segment c.toList)) ∧
    (1 < p.segments.length →
      ∃ above last, p.split? = some (above, last) ∧ Segment last.toList ∧
        above.join last = .ok p) ∧
    (p.segments.length = 1 → p.parent? = none) := by
  refine ⟨(join_isPath_iff p c).trans isPath_iff, fun free => ?_, fun q joined => ?_,
    fun several => ?_, parent?_of_single⟩
  · rw [join_isPath_iff, isPath_iff, pathSegments, Text.separated_of_not_mem free]
    exact List.forall_mem_singleton
  · constructor
    · rintro ⟨rfl, -⟩
      exact q.base_segment
    · intro segment
      obtain ⟨ending, above⟩ := parts_of_join joined segment
      exact ⟨ending, above, by rw [split?, above, ending]; rfl⟩
  · obtain ⟨above, is_parent, joined⟩ := join_of_split several
    exact ⟨above, p.base, by rw [split?, is_parent]; rfl, p.base_segment, joined⟩

/-- A segment with a hyphen, below the root. -/
theorem split_undoes_join_sample :
    ∃ q, root.join "cert-manager" = .ok q ∧ q.base = "cert-manager" ∧ q.parent? = some root ∧
      ∃ above last, q.split? = some (above, last) ∧ above.join last = .ok q := by
  have segment : Segment "cert-manager".toList := by decide +kernel
  obtain ⟨-, accepted, parts, -⟩ := split_undoes_join_iff root "cert-manager"
  obtain ⟨q, joined⟩ := (accepted (by decide +kernel)).2 segment
  obtain ⟨ending, parent, -⟩ := (parts q joined).2 segment
  have several : 1 < q.segments.length := by
    rw [segments_of_join joined]
    decide +kernel
  obtain ⟨-, -, -, splits, -⟩ := split_undoes_join_iff q ""
  obtain ⟨above, last, split, -, again⟩ := splits several
  exact ⟨q, joined, ending, parent, above, last, split, again⟩

/-- Two segments are taken for a child, and the last one alone is given back. -/
theorem extended_by_two :
    ¬ Segment "catalog:tools".toList ∧
      (root.join "catalog:tools").toOption.map (fun q => (q.path, q.base, q.parent?.map path)) =
        some ("root:catalog:tools", "tools", some "root:catalog") := by
  decide +kernel

end Partition
end ApiCatalog
