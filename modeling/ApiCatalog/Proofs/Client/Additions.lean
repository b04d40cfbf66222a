import ApiCatalog.Proofs.Client.Notes
import ApiCatalog.Proofs.Client.Surroundings

/-!
# What clients add

A client that writes no status adds the bindings that are created for it. Main statement: it changes
nothing else, whatever calls fail and whatever others move (`adds_run`).
-/
namespace ApiCatalog
namespace Client

open Binding

variable {δ : Type}

section Bindings

variable (z : Surroundings δ)

/-- Others do not move the binding. -/
def Surroundings.Leaves (key : ObjectKey) : Prop :=
  ∀ n, ∀ move ∈ (z.around n).moves, ObjectKey.cluster move.1 move.2.1 ≠ key

/-- A binding that is still there; others may have moved it to another phase. -/
structure Surroundings.Kept (key : ObjectKey) (b b' : ApiBinding) : Prop where
  still : b' = { b with
    phase := b'.phase, metadata := { b.metadata with version := b'.metadata.version } }
  same : z.Leaves key → b' = b

variable {z} {key : ObjectKey} {b b' b'' : ApiBinding}

theorem Surroundings.Kept.refl : z.Kept key b b := ⟨rfl, fun _ => rfl⟩

theorem Surroundings.Kept.trans (first : z.Kept key b b') (second : z.Kept key b' b'') :
    z.Kept key b b'' := by
  refine ⟨?_, fun leaves => (second.same leaves).trans (first.same leaves)⟩
  rw [second.still, first.still]

end Bindings

/-- From one store to another these bindings are added, and nothing else is changed but the phases
of bindings that others have moved. -/
structure Surroundings.Adds (z : Surroundings δ) (made : List (Partition × ApiBinding))
    (s s' : Memory) : Prop where
  entries : s'.entries = s.entries
  exports : s'.exports = s.exports
  kept : ∀ {key b}, s.bindings.get? key = some b →
    ∃ b', s'.bindings.get? key = some b' ∧ z.Kept key b b'
  free : ∀ pair ∈ made, s.bindings.get? (Stored.key pair.1 pair.2) = none
  there : ∀ pair ∈ made, ∃ b', s'.bindings.get? (Stored.key pair.1 pair.2) = some b' ∧
    z.Kept (Stored.key pair.1 pair.2) pair.2 b'
  apart : (made.map fun pair => Stored.key pair.1 pair.2).Nodup
  others : ∀ {key}, s.bindings.get? key = none →
    (∀ pair ∈ made, Stored.key pair.1 pair.2 ≠ key) → s'.bindings.get? key = none

namespace Surroundings

variable {z : Surroundings δ} {s s' s'' : Memory} {first second : List (Partition × ApiBinding)}

theorem Adds.of_same (same : s'.SameObjects s) : z.Adds [] s s' where
  entries := same.entries
  exports := same.exports
  kept found := ⟨_, same.bindings ▸ found, .refl⟩
  free := nofun
  there := nofun
  apart := .nil
  others free _ := same.bindings ▸ free

/-- What is not there in the end was not there before. -/
theorem Adds.free_before (adds : z.Adds first s s') {key : ObjectKey}
    (free : s'.bindings.get? key = none) : s.bindings.get? key = none := by
  cases found : s.bindings.get? key with
  | none => rfl
  | some b =>
    obtain ⟨b', there, -⟩ := adds.kept found
    rw [free] at there
    cases there

theorem Adds.trans (before : z.Adds first s s') (after : z.Adds second s' s'') :
    z.Adds (first ++ second) s s'' where
  entries := after.entries.trans before.entries
  exports := after.exports.trans before.exports
  kept found := by
    obtain ⟨b', there, kept⟩ := before.kept found
    obtain ⟨b'', still, again⟩ := after.kept there
    exact ⟨b'', still, kept.trans again⟩
  free pair member := by
    rcases List.mem_append.1 member with early | late
    · exact before.free pair early
    · exact before.free_before (after.free pair late)
  there pair member := by
    rcases List.mem_append.1 member with early | late
    · obtain ⟨b', there, kept⟩ := before.there pair early
      obtain ⟨b'', still, again⟩ := after.kept there
      exact ⟨b'', still, kept.trans again⟩
    · exact after.there pair late
  apart := by
    -- What is added first is there when the others are added, whose keys are free then.
    rw [List.map_append]
    refine List.nodup_append.2 ⟨before.apart, after.apart, ?_⟩
    intro key early other late same
    obtain ⟨pair, member, rfl⟩ := List.mem_map.1 early
    obtain ⟨pair', member', rfl⟩ := List.mem_map.1 late
    obtain ⟨b', there, -⟩ := before.there pair member
    rw [same, after.free pair' member'] at there
    cases there
  others free apart :=
    after.others (before.others free fun pair early => apart pair (List.mem_append_left _ early))
      fun pair late => apart pair (List.mem_append_right _ late)

/-- Others move bindings that are there, and add none. -/
theorem adds_setPhase (z : Surroundings δ) {n : Nat} {move : Partition × String × BindingPhase}
    (moves : move ∈ (z.around n).moves) (s : Memory) :
    z.Adds [] s (s.setPhase move.1 move.2.1 move.2.2).2 := by
  unfold Memory.setPhase
  extract_lets bumped key
  cases moved : bumped.bindings.get? key with
  | none => exact .of_same ⟨rfl, rfl, rfl⟩
  | some b =>
    refine ⟨rfl, rfl, fun {other found} there => ?_, nofun, nofun, .nil, fun {other} free _ => ?_⟩
    · by_cases here : other = key
      · subst here
        have same : b = found := Option.some.inj (moved.symm.trans there)
        subst same
        exact ⟨_, Table.get?_insert_self _ _ _, rfl, fun leaves => absurd rfl (leaves n move moves)⟩
      · exact ⟨found, (Table.get?_insert_ne here).trans there, .refl⟩
    · refine (Table.get?_insert_ne ?_).trans free
      rintro rfl
      rw [show bumped.bindings.get? key = none from free] at moved
      cases moved

theorem adds_move (z : Surroundings δ) (n : Nat) (s : Memory) :
    z.Adds [] s ((z.around n).move s) := by
  have main : ∀ (moves : List (Partition × String × BindingPhase)) (s : Memory),
      (∀ move ∈ moves, move ∈ (z.around n).moves) →
        z.Adds [] s (moves.foldl (fun s move => (s.setPhase move.1 move.2.1 move.2.2).2) s) := by
    intro moves
    induction moves with
    | nil => exact fun s _ => .of_same (.refl s)
    | cons move rest ih =>
      intro s all
      obtain ⟨here, others⟩ := List.forall_mem_cons.1 all
      exact (adds_setPhase z here s).trans (ih _ others)
  exact main _ s fun _ member => member

/-- A binding that is created is added. -/
theorem adds_createBinding (z : Surroundings δ) {suffix : String} {partition : Partition}
    {wanted created : ApiBinding}
    (done : s.createBinding suffix partition wanted = (.ok created, s')) :
    z.Adds [(partition, created)] s s' := by
  obtain ⟨rfl, free, -⟩ := Memory.createBinding_ok done
  have kept {key : ObjectKey} {b : ApiBinding} (found : s.bindings.get? key = some b) :
      key ≠ Stored.key partition created := by
    rintro rfl
    rw [free] at found
    cases found
  refine ⟨rfl, rfl,
    fun found => ⟨_, (Table.get?_insert_ne (kept found)).trans found, .refl⟩, ?_, ?_,
    List.nodup_singleton _, fun free apart => ?_⟩
  · exact List.forall_mem_singleton.2 free
  · exact List.forall_mem_singleton.2 ⟨_, Table.get?_insert_self _ _ _, .refl⟩
  · exact (Table.get?_insert_ne (List.forall_mem_singleton.1 apart).symm).trans free

end Surroundings

namespace Surroundings

variable (z : Surroundings δ) (w : Premises δ)

/-- Nothing but the creation of a binding shows as one. -/
theorem made_notes {action : Action} (quiet : Quiet action) (reply : action.Answer) :
    made (notes [⟨action, reply⟩]) = [] := by
  cases action with
  | call c => cases c <;> first | exact quiet.elim | rfl
  | write pieces =>
    cases reply with
    | error reason => rfl
    | ok done =>
      cases told : note? ⟨.write pieces, .ok done⟩ with
      | none => rw [notes_cons_of_none told]; rfl
      | some note =>
        rw [notes_cons_of_some told]
        obtain ⟨entry, rfl, -⟩ := told?_eq_some told
        rfl
  | flush => cases reply <;> rfl
  | clock => rfl
  | sleep length => rfl

/-- An action adds the binding that it creates, if it does. -/
theorem adds_serve {action : Action}
    (known : ∀ c, note? ⟨action, (z.serve action w).1⟩ ≠ some (.other c)) :
    z.Adds (made (notes [⟨action, (z.serve action w).1⟩])) w.store (z.serve action w).2.store := by
  have before : z.Adds [] w.store (z.moved w) := adds_move z w.actions w.store
  have rest (quiet : Quiet action) : z.Adds (made (notes [⟨action, (z.serve action w).1⟩]))
      w.store (z.serve action w).2.store := by
    rw [made_notes quiet, store_serve z w quiet]
    exact before
  cases action with
  | call c =>
    cases c with
    | createBinding partition wanted =>
      obtain ⟨made, suffix, reply, done⟩ | ⟨e, reply, same, -⟩ :=
        serve_createBinding z w partition wanted
      · rw [reply]
        exact before.trans (adds_createBinding z done)
      · rw [reply]
        exact before.trans (.of_same same)
    | updateEntryStatus partition entry => exact absurd rfl (known _)
    | _ => exact rest trivial
  | _ => exact rest trivial

/-- A client that makes no other calls adds the bindings that are created for it. -/
theorem adds_run {log : List Deed} {w w' : Premises δ}
    (follows : Program.Follows z.serve w log w') (known : ∀ c, .other c ∉ notes log) :
    z.Adds (made (notes log)) w.store w'.store := by
  induction log generalizing w with
  | nil =>
    cases follows
    exact .of_same (.refl _)
  | cons deed rest ih =>
    obtain ⟨action, reply⟩ := deed
    obtain ⟨answered, later⟩ := follows
    dsimp only at answered later
    subst answered
    obtain ⟨here, behind⟩ := other_not_mem_append.1
      (show ∀ c, .other c ∉ notes ([⟨action, (z.serve action w).1⟩] ++ rest) from known)
    have first : z.Adds _ w.store _ := adds_serve z w fun c noted =>
      here c (List.mem_filterMap.2 ⟨_, List.mem_cons_self, noted⟩)
    have split : notes (⟨action, (z.serve action w).1⟩ :: rest) =
        notes [⟨action, (z.serve action w).1⟩] ++ notes rest := notes_append [_] rest
    rw [split, made_append]
    exact first.trans (ih later behind)

section Notes

variable {z}

/-- Up to its first note a client adds nothing, and then the surroundings answer as noted. -/
theorem follows_note {log : List Deed} {w w' : Premises δ} {note : Note} {rest : List Note}
    (follows : Program.Follows z.serve w log w') (noted : notes log = note :: rest)
    {action : Action} {reply : action.Answer} (shows : note.deed? = some ⟨action, reply⟩) :
    ∃ v later, z.Adds [] w.store v.store ∧ (z.serve action v).1 = reply ∧
      Program.Follows z.serve (z.serve action v).2 later w' ∧ notes later = rest := by
  obtain ⟨before, deed, later, rfl, quiet, this, rfl⟩ := List.filterMap_eq_cons_iff.1 noted
  obtain ⟨v, first, answered, after⟩ := follows.of_append
  cases deed_of_note this shows
  have none : notes before = [] := List.filterMap_eq_nil_iff.2 quiet
  have adds := adds_run z first (by rw [none]; exact fun _ => List.not_mem_nil)
  rw [none] at adds
  exact ⟨v, later, adds, answered.symm, after, rfl⟩

/-- Where every output is taken no refusal is noted. -/
theorem refusals_eq_nil {log : List Deed} {w w' : Premises δ}
    (follows : Program.Follows z.serve w log w') (writes : ∀ n, (z.around n).output = .ok ()) :
    refusals (notes log) = [] := by
  refine List.filterMap_eq_nil_iff.2 fun note member => ?_
  obtain ⟨⟨action, reply⟩, on_record, noted⟩ := exists_deed member
  obtain ⟨v, answered⟩ := follows.answered _ on_record
  dsimp only at answered
  subst answered
  have taken : (z.around v.actions).output = .ok () := writes v.actions
  cases action with
  | call c => cases c <;> cases noted <;> rfl
  | write pieces =>
    rw [show (z.serve (.write pieces) v).1 = .ok () from taken] at noted
    obtain ⟨entry, rfl, -⟩ := told?_eq_some noted
    rfl
  | flush =>
    rw [show (z.serve .flush v).1 = .ok () from taken] at noted
    cases noted
  | clock => cases noted
  | sleep length => cases noted

/-- Each deed is the action of its number. -/
theorem served_at {log : List Deed} {w w' : Premises δ}
    (follows : Program.Follows z.serve w log w') {n : Nat} {deed : Deed}
    (here : log[n]? = some deed) :
    ∃ v, v.actions = w.actions + n ∧ (z.serve deed.1 v).1 = deed.2 := by
  induction log generalizing w n with
  | nil => cases here
  | cons first rest ih =>
    cases n with
    | zero =>
      cases here
      exact ⟨w, rfl, follows.1.symm⟩
    | succ n =>
      obtain ⟨v, number, served⟩ := ih follows.2 here
      exact ⟨v, number.trans (Nat.add_right_comm w.actions 1 n), served⟩

/-- A binding that was seen was in the store, to which at most some had been added. -/
theorem look_served {log : List Deed} {w w' : Premises δ} {partition : Partition} {name : String}
    {b : ApiBinding} (follows : Program.Follows z.serve w log w')
    (known : ∀ c, .other c ∉ notes log) (member : .look ⟨partition, name, .ok b⟩ ∈ notes log) :
    ∃ added s, z.Adds added w.store s ∧ s.getBinding partition name = .ok b := by
  obtain ⟨deed, on_record, noted⟩ := exists_deed member
  cases deed_of_note noted rfl
  obtain ⟨before, later, rfl⟩ := List.append_of_mem on_record
  obtain ⟨v, first, answered, -⟩ := follows.of_append
  have adds := adds_run z first (other_not_mem_append.1 known).1
  refine ⟨_, z.moved v, adds.trans (adds_move z v.actions v.store), ?_⟩
  have quiet : Quiet (.call (.getBinding partition name)) := trivial
  rcases z.serve_reading v quiet with ⟨e, -, refused⟩ | found
  · have none : Except.ok b = .error e := answered.trans refused
    cases none
  · exact (answered.trans found).symm

end Notes

end Surroundings
end Client
end ApiCatalog
