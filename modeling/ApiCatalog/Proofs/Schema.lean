import ApiCatalog.Schema

/-!
# Reading and showing schema identifiers

The first two dots of an identifier separate version, resource and group. Main statements: an
identifier is read exactly if it has two dots (`ofString?_eq`), and then it names the resource
between the first two and the group after the second (`ofString?_map_groupResource`); showing what
was read gives the text back, and reading what is shown gives the parts back (`parts_reversible`).
-/
namespace ApiCatalog.SchemaId

def dots (identifier : String) : Nat := identifier.toList.count '.'

/-- What stands after the first dot. -/
def afterDot (s : List Char) : List Char := (s.dropWhile (· != '.')).drop 1

/-- What stands before the first dot. -/
def beforeDot (s : List Char) : List Char := s.takeWhile (· != '.')

/-- The resource is between the first two dots, the group after the second. -/
def named (identifier : String) : GroupResource :=
  ⟨String.ofList (afterDot (afterDot identifier.toList)),
    String.ofList (beforeDot (afterDot identifier.toList))⟩

/-- The version is before the first dot. -/
def parts (identifier : String) : SchemaId :=
  ⟨String.ofList (beforeDot identifier.toList), (named identifier).resource,
    (named identifier).group⟩

section FirstDot

theorem cut?_eq (s : List Char) :
    cut? s = if '.' ∈ s then some (beforeDot s, afterDot s) else none := by
  induction s with
  | nil => rfl
  | cons c rest ih =>
    by_cases dot : c = '.'
    · simp [cut?, beforeDot, afterDot, dot]
    · have same : '.' ∈ c :: rest ↔ '.' ∈ rest := by simp [Ne.symm dot]
      simp only [cut?, if_neg dot, ih, same]
      split <;> simp [beforeDot, afterDot, dot]

theorem two_le_count_iff (s : List Char) :
    2 ≤ s.count '.' ↔ '.' ∈ s ∧ '.' ∈ afterDot s := by
  induction s with
  | nil => simp
  | cons c rest ih =>
    by_cases dot : c = '.'
    · subst dot
      have positive : 1 ≤ rest.count '.' ↔ '.' ∈ rest := List.count_pos_iff
      simp [afterDot, positive]
    · have skipped : afterDot (c :: rest) = afterDot rest := by simp [afterDot, dot]
      have same : '.' ∈ c :: rest ↔ '.' ∈ rest := by simp [Ne.symm dot]
      rw [List.count_cons_of_ne dot, ih, skipped, same]

theorem dot_not_mem_beforeDot (s : List Char) : '.' ∉ beforeDot s := by
  intro inside
  have others : (beforeDot s).all (· != '.') = true := List.all_takeWhile
  exact bne_iff_ne.1 (List.all_eq_true.1 others '.' inside) rfl

theorem beforeDot_append_afterDot {s : List Char} (dotted : '.' ∈ s) :
    beforeDot s ++ '.' :: afterDot s = s := by
  induction s with
  | nil => cases dotted
  | cons c rest ih =>
    by_cases dot : c = '.'
    · simp [beforeDot, afterDot, dot]
    · have later : '.' ∈ rest := (List.mem_cons.1 dotted).resolve_left (Ne.symm dot)
      simpa [beforeDot, afterDot, dot] using ih later

variable {s : List Char} (free : '.' ∉ s)

include free

theorem other_of_mem : ∀ c ∈ s, (c != '.') = true := by
  rintro c inside
  exact bne_iff_ne.2 fun dot => free (dot ▸ inside)

theorem beforeDot_append (rest : List Char) : beforeDot (s ++ '.' :: rest) = s := by
  rw [beforeDot, List.takeWhile_append_of_pos (other_of_mem free)]
  simp

theorem afterDot_append (rest : List Char) : afterDot (s ++ '.' :: rest) = rest := by
  rw [afterDot, List.dropWhile_append_of_pos (other_of_mem free)]
  simp

end FirstDot

/-- An identifier with fewer than two dots is not read. -/
theorem ofString?_eq (identifier : String) :
    ofString? identifier = if 2 ≤ dots identifier then some (parts identifier) else none := by
  simp only [ofString?, cut?_eq, dots, two_le_count_iff]
  by_cases first : '.' ∈ identifier.toList
  · by_cases second : '.' ∈ afterDot identifier.toList
    · simp [first, second, parts, named]
    · simp [first, second]
  · simp [first]

theorem ofString?_map_groupResource (identifier : String) :
    (ofString? identifier).map groupResource =
      if 2 ≤ dots identifier then some (named identifier) else none := by
  rw [ofString?_eq]
  split <;> rfl

theorem ofString_eq_ok_iff {identifier : String} {id : SchemaId} :
    ofString identifier = .ok id ↔ 2 ≤ dots identifier ∧ parts identifier = id := by
  unfold ofString
  rw [ofString?_eq]
  by_cases enough : 2 ≤ dots identifier
  · simp [enough]
  · simp [enough]

theorem ofString_eq_error_iff {identifier : String} {e : SchemaIdError} :
    ofString identifier = .error e ↔ dots identifier < 2 ∧ e = ⟨identifier⟩ := by
  unfold ofString
  rw [ofString?_eq, ← Nat.not_le]
  by_cases enough : 2 ≤ dots identifier
  · simp [enough]
  · simp [enough, eq_comm]

section Showing

theorem toList_display (id : SchemaId) :
    id.display.toList =
      id.version.toList ++ '.' :: (id.resource.toList ++ '.' :: id.group.toList) := by
  simp [display]

/-- What was read is shown as it was written. -/
theorem display_parts {identifier : String} (enough : 2 ≤ dots identifier) :
    (parts identifier).display = identifier := by
  obtain ⟨first, second⟩ := (two_le_count_iff _).1 enough
  rw [String.ext_iff, toList_display]
  simp only [parts, named, String.toList_ofList]
  rw [beforeDot_append_afterDot second, beforeDot_append_afterDot first]

variable {id : SchemaId} (version : '.' ∉ id.version.toList) (resource : '.' ∉ id.resource.toList)

include version

theorem two_le_dots_display : 2 ≤ dots id.display := by
  rw [dots, two_le_count_iff, toList_display, afterDot_append version]
  simp

include resource

/-- What is shown has the parts that it is made of. -/
theorem parts_display : parts id.display = id := by
  simp only [parts, named, toList_display, beforeDot_append version, afterDot_append version,
    beforeDot_append resource, afterDot_append resource, String.ofList_toList]

end Showing

/-- An identifier is read exactly if it has two dots; one with fewer is refused as it is. What was
read has a version and a resource without dots, the text before the first dot and the text between
the first two, and is shown as the identifier again. Parts of which the version and the resource
have no dots are shown as an identifier of which they are read, whatever the group is. -/
theorem parts_reversible (identifier : String) :
    ((∃ id, ofString identifier = .ok id) ↔ 2 ≤ dots identifier) ∧
    (∀ id, ofString identifier = .ok id →
      id.display = identifier ∧ '.' ∉ id.version.toList ∧ '.' ∉ id.resource.toList ∧
      id.version.toList = beforeDot identifier.toList ∧
      id.resource.toList = beforeDot (afterDot identifier.toList) ∧
      id.group.toList = afterDot (afterDot identifier.toList)) ∧
    (∀ e, ofString identifier = .error e ↔ dots identifier < 2 ∧ e = ⟨identifier⟩) ∧
    ∀ id : SchemaId, '.' ∉ id.version.toList → '.' ∉ id.resource.toList →
      ofString id.display = .ok id := by
  refine ⟨?_, fun id read => ?_, fun e => ofString_eq_error_iff, fun id version resource => ?_⟩
  · constructor
    · rintro ⟨id, read⟩
      exact (ofString_eq_ok_iff.1 read).1
    · intro enough
      exact ⟨_, ofString_eq_ok_iff.2 ⟨enough, rfl⟩⟩
  · obtain ⟨enough, rfl⟩ := ofString_eq_ok_iff.1 read
    have version : (parts identifier).version.toList = beforeDot identifier.toList :=
      String.toList_ofList
    have resource : (parts identifier).resource.toList =
        beforeDot (afterDot identifier.toList) := String.toList_ofList
    refine ⟨display_parts enough, ?_, ?_, version, resource, String.toList_ofList⟩
    · exact version ▸ dot_not_mem_beforeDot _
    · exact resource ▸ dot_not_mem_beforeDot _
  · exact ofString_eq_ok_iff.2 ⟨two_le_dots_display version, parts_display version resource⟩

/-- The resource is empty, and the group has a dot at its end. -/
theorem parts_reversible_sample :
    ofString "v1..catalog." = .ok ⟨"v1", "", "catalog."⟩ ∧
      (⟨"v1", "", "catalog."⟩ : SchemaId).display = "v1..catalog." := by
  obtain ⟨-, shown, -, again⟩ := parts_reversible "v1..catalog."
  have read : ofString "v1..catalog." = .ok ⟨"v1", "", "catalog."⟩ :=
    again ⟨"v1", "", "catalog."⟩ (by decide +kernel) (by decide +kernel)
  exact ⟨read, (shown _ read).1⟩

end ApiCatalog.SchemaId
