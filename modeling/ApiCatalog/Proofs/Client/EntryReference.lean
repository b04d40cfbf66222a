import ApiCatalog.Client.Binding
import ApiCatalog.Proofs.Partition.Grammar

/-!
# References to entries

An entry is referred to by a rooted path whose last segment is its name. Main statements: a
reference is accepted exactly if it is a rooted path of two segments or more
(`validate_accepts_iff`), its parts joined give it again (`parts_of_validate`), and partition paths
and references to entries are both exactly what their grammar says (`accepted_by_grammar`).
-/
namespace ApiCatalog.Binding

variable {o : Options} {p : Partition} {name : String}

theorem validate_eq_ok_iff :
    o.validate = .ok (p, name) ↔
      ∃ whole : Partition, whole.path = o.entryRef ∧ whole.isRooted = true ∧
        whole.split? = some (p, name) := by
  unfold Options.validate
  constructor
  · intro accepted
    split at accepted
    · cases accepted
    next whole read =>
      split at accepted
      next rooted =>
        split at accepted
        next parts split =>
          cases accepted
          exact ⟨whole, Partition.ofString_eq_ok_iff.1 read, rooted, split⟩
        · cases accepted
      · cases accepted
  · rintro ⟨whole, read, rooted, split⟩
    rw [Partition.ofString_eq_ok_iff.2 read]
    simp only [rooted, if_true, split]

theorem eq_of_validate_error {e : ClientError} (refused : o.validate = .error e) :
    e = .invalidEntryReference o.entryRef := by
  unfold Options.validate at refused
  split at refused
  · cases refused
    rfl
  · split at refused
    · split at refused
      · cases refused
      · cases refused
        rfl
    · cases refused
      rfl

theorem validate_accepts_iff :
    (∃ parts, o.validate = .ok parts) ↔ o.entryRef.toList ∈ Grammar.entryReference := by
  constructor
  · rintro ⟨⟨p, name⟩, accepted⟩
    obtain ⟨whole, read, rooted, split⟩ := validate_eq_ok_iff.1 accepted
    have several := Partition.several_of_split split
    obtain ⟨others, pieces, segments⟩ :=
      Grammar.mem_rootedPath_iff.1 (Partition.isRooted_iff.1 rooted)
    rw [← read, Grammar.mem_entryReference_iff]
    refine ⟨others, ?_, pieces, segments⟩
    rintro rfl
    have single : whole.segments.length = 1 := congrArg List.length pieces
    omega
  · intro reference
    obtain ⟨others, filled, pieces, segments⟩ := Grammar.mem_entryReference_iff.1 reference
    have valid : IsPath o.entryRef := by
      rw [isPath_iff, pathSegments, pieces]
      exact List.forall_mem_cons.2 ⟨Grammar.segment_root, segments⟩
    let whole : Partition := ⟨o.entryRef, valid⟩
    have parts : whole.segments = "root".toList :: others := pieces
    have several : 1 < whole.segments.length := by
      rw [parts, List.length_cons]
      exact Nat.succ_lt_succ (List.length_pos_of_ne_nil filled)
    obtain ⟨p, name, split⟩ := Partition.exists_split several
    refine ⟨(p, name), validate_eq_ok_iff.2 ⟨whole, rfl, ?_, split⟩⟩
    rw [Partition.isRooted, parts]
    rfl

/-- The partition and the name that a reference is made of. -/
theorem parts_of_validate (accepted : o.validate = .ok (p, name)) :
    p.path.toList ∈ Grammar.rootedPath ∧ name.toList ∈ Grammar.segment ∧
      p.path ++ ":" ++ name = o.entryRef := by
  obtain ⟨whole, read, rooted, split⟩ := validate_eq_ok_iff.1 accepted
  obtain ⟨joined, segment, same⟩ := Partition.parts_of_split split
  exact ⟨Partition.isRooted_iff.1 (same.trans rooted), Grammar.mem_segment_iff.2 segment,
    joined.trans read⟩

/-- A text is accepted as a partition path exactly if it is in the language of paths, and so if all
that is between separators passes the check of its bytes. The partition shows and writes the text
as it is. A text that is refused is empty, or the report names the first piece that is no segment.
A reference to an entry is accepted exactly if it is in the language of references. Its partition is
a rooted path then, its name is a segment, and with a separator between them they are the
reference again. -/
theorem accepted_by_grammar (text : String) (o : Options) :
    ((∃ p, Partition.ofString text = .ok p) ↔ text.toList ∈ Grammar.path) ∧
    ((∃ p, Partition.ofString text = .ok p) ↔
      ∀ piece ∈ pathSegments text, isSegmentBytes (Text.utf8 piece) = true) ∧
    (∀ p, Partition.ofString text = .ok p → p.path = text ∧ encode p = .text text) ∧
    (∀ e, Partition.ofString text = .error e → e.path = text ∧
      (text = "" ∧ e.fault = .empty ∨
        ∃ before bad after, text.toList = Text.joined ':' (before ++ bad :: after) ∧
          (∀ piece ∈ before ++ bad :: after, ':' ∉ piece) ∧
          (∀ piece ∈ before, piece ∈ Grammar.segment) ∧ bad ∉ Grammar.segment ∧
          e.fault = .segment (String.ofList bad))) ∧
    ((∃ parts, o.validate = .ok parts) ↔ o.entryRef.toList ∈ Grammar.entryReference) ∧
    (∀ p name, o.validate = .ok (p, name) →
      p.path.toList ∈ Grammar.path ∧ p.isRooted = true ∧ p.path.toList ∈ Grammar.rootedPath ∧
        name.toList ∈ Grammar.segment ∧ p.path ++ ":" ++ name = o.entryRef) ∧
    ∀ e, o.validate = .error e → e = .invalidEntryReference o.entryRef := by
  refine ⟨?_, ?_, fun p accepted => ?_, fun e refused => ?_, validate_accepts_iff,
    fun p name accepted => ?_, fun e => eq_of_validate_error⟩
  · rw [Partition.accepted_iff, Partition.isPath_iff_mem]
  · rw [Partition.accepted_iff, Partition.isPath_iff_bytes]
  · have shown := Partition.ofString_eq_ok_iff.1 accepted
    exact ⟨shown, congrArg Json.text shown⟩
  · rcases Partition.fault_of_refused refused with ⟨empty, rfl⟩ |
      ⟨before, bad, after, pieces, segments, fault, rfl⟩
    · exact ⟨rfl, .inl ⟨empty, rfl⟩⟩
    · refine ⟨rfl, .inr ⟨before, bad, after, ?_, ?_, ?_, ?_, rfl⟩⟩
      · rw [← pieces, pathSegments, Text.joined_separated]
      · rw [← pieces]
        exact fun piece => Text.not_mem_of_mem_separated
      · exact fun piece inside => Grammar.mem_segment_iff.2 (segments piece inside)
      · exact fault ∘ Grammar.mem_segment_iff.1
  · obtain ⟨rooted, segment, joined⟩ := parts_of_validate accepted
    exact ⟨Partition.isPath_iff_mem.1 p.valid, Partition.isRooted_iff.2 rooted, rooted, segment,
      joined⟩

/-- Two pieces of the first text are no segments, and a hyphen is at the end of the second one. -/
theorem accepted_by_grammar_sample :
    "root:a_b:x-".toList ∉ Grammar.path ∧
      (∃ before after, "root:a_b:x-".toList = Text.joined ':' (before ++ "a_b".toList :: after) ∧
        (∀ piece ∈ before, piece ∈ Grammar.segment) ∧ "a_b".toList ∉ Grammar.segment) ∧
      "root:catalog:cert-manager".toList ∈ Grammar.entryReference ∧
      "root:catalog".toList ∈ Grammar.rootedPath := by
  let o : Options := ⟨"root:catalog:cert-manager", .root, .zero, .zero⟩
  have refused : Partition.ofString "root:a_b:x-" =
      .error ⟨"root:a_b:x-", .segment "a_b"⟩ := by decide +kernel
  have accepted : o.validate = .ok (⟨"root:catalog", by decide +kernel⟩, "cert-manager") :=
    validate_eq_ok_iff.2 ⟨⟨"root:catalog:cert-manager", by decide +kernel⟩, rfl,
      by decide +kernel, by decide +kernel⟩
  obtain ⟨path, -, -, report, reference, parts, -⟩ := accepted_by_grammar "root:a_b:x-" o
  refine ⟨fun inside => ?_, ?_, reference.1 ⟨_, accepted⟩, (parts _ _ accepted).2.2.1⟩
  · obtain ⟨p, read⟩ := path.2 inside
    cases read.symm.trans refused
  · rcases (report _ refused).2 with ⟨empty, -⟩ |
      ⟨before, bad, after, pieces, -, segments, fault, named⟩
    · exact absurd empty (by decide)
    · have same : "a_b".toList = bad := by
        rw [PathFault.segment.inj named, String.toList_ofList]
      exact ⟨before, after, same ▸ pieces, segments, same ▸ fault⟩

end ApiCatalog.Binding
