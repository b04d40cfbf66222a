import ApiCatalog.Proofs.Client.Notes

/-!
# Waiting for bindings

A client looks at the bindings it has created, one after the other, until it has seen all of them
bound in one round. Main statement: it ends well exactly if its last round was such a one
(`ends_wait`), and it is then that it says that the entry is bound (`awaited`).
-/
namespace ApiCatalog
namespace Binding

open Client

section Waiting

def Look.place (l : Look) : Partition × String := (l.partition, l.name)

/-- The binding was there and was bound. -/
def Look.isBound (l : Look) : Bool :=
  match l.answer with
  | .ok b => b.phase == .bound
  | .error _ => false

theorem Look.isBound_eq {l : Look} {b : ApiBinding} (read : l.answer = .ok b) :
    l.isBound = b.isBound := by
  rw [Look.isBound, read]
  rfl

/-- In the last round of looks, one at each of the named bindings, all of them were bound. -/
def SeenBound (target : Partition) (names : List String) (looks : List Look) : Prop :=
  ∃ last, last <:+ looks ∧ last.map Look.place = names.map (target, ·) ∧
    ∀ l ∈ last, l.isBound

/-- One round of looks, and what it gives: the names of the bindings that are not bound, or the text
of the error that breaks it off. -/
inductive Round (target : Partition) : List String → List Look → Except String (List String) → Prop
    where
  | done : Round target [] [] (.ok [])
  | broken {name names} (e : StoreError) :
      Round target (name :: names) [⟨target, name, .error e⟩] (.error e.message)
  | failed {name names looks reason} (b : ApiBinding)
      (rest : Round target names looks (.error reason)) :
      Round target (name :: names) (⟨target, name, .ok b⟩ :: looks) (.error reason)
  | seen {name names looks unbound} (b : ApiBinding)
      (rest : Round target names looks (.ok unbound)) :
      Round target (name :: names) (⟨target, name, .ok b⟩ :: looks)
        (.ok (if b.isBound then unbound else name :: unbound))

variable {target : Partition} {names : List String} {looks : List Look} {log : List Deed}

theorem round_sweep {result : Except Halt (Except String (List String))}
    (ends : Ends (sweep target names) log result) :
    ∃ looks swept, notes log = looks.map .look ∧ result = .ok swept ∧
      Round target names looks swept := by
  induction names generalizing log result with
  | nil =>
    obtain ⟨rfl, rfl⟩ := ends.of_pure
    exact ⟨[], _, rfl, rfl, .done⟩
  | cons name names ih =>
    obtain ⟨reply, rest, rfl, after⟩ := ends.of_act_bind
    rw [notes_cons_of_some rfl]
    cases reply with
    | error e =>
      obtain ⟨rfl, rfl⟩ := after.of_pure
      exact ⟨[_], _, rfl, rfl, .broken e⟩
    | ok b =>
      obtain ⟨h, halted, rfl⟩ | ⟨swept, first, last, rfl, others, done⟩ := after.of_bind
      · obtain ⟨_, _, -, same, -⟩ := ih halted
        cases same
      · obtain ⟨looks, _, noted, same, round⟩ := ih others
        cases same
        rw [notes_append, noted]
        cases swept with
        | error reason =>
          obtain ⟨rfl, rfl⟩ := done.of_pure
          exact ⟨_ :: looks, _, congrArg (_ :: ·) (List.append_nil _), rfl, .failed b round⟩
        | ok unbound =>
          obtain ⟨rfl, rfl⟩ := done.of_pure
          exact ⟨_ :: looks, _, congrArg (_ :: ·) (List.append_nil _), rfl, .seen b round⟩

/-- A round that is broken off ends with a look that finds nothing bound. -/
theorem Round.broken_off {reason : String} (round : Round target names looks (.error reason)) :
    names ≠ [] ∧ ∃ before e name, looks = before ++ [⟨target, name, .error e⟩] := by
  generalize swept_eq : (Except.error reason : Except String (List String)) = swept at round
  induction round with
  | done => cases swept_eq
  | broken e => exact ⟨List.cons_ne_nil _ _, [], e, _, rfl⟩
  | failed b rest ih =>
    obtain ⟨-, before, e, name, rfl⟩ := ih swept_eq
    exact ⟨List.cons_ne_nil _ _, _ :: before, e, name, rfl⟩
  | seen b rest ih => cases swept_eq

/-- A round that is not broken off looks at each binding once. -/
theorem Round.places {unbound : List String} (round : Round target names looks (.ok unbound)) :
    looks.map Look.place = names.map (target, ·) := by
  generalize swept_eq : (Except.ok unbound : Except String (List String)) = swept at round
  induction round generalizing unbound with
  | done => rfl
  | broken e => cases swept_eq
  | failed b rest ih => cases swept_eq
  | seen b rest ih => exact congrArg (_ :: ·) (ih rfl)

theorem Round.bound_iff {unbound : List String} (round : Round target names looks (.ok unbound)) :
    (∀ l ∈ looks, l.isBound) ↔ unbound = [] := by
  generalize swept_eq : (Except.ok unbound : Except String (List String)) = swept at round
  induction round generalizing unbound with
  | done =>
    cases swept_eq
    exact ⟨fun _ => rfl, fun _ => nofun⟩
  | broken e => cases swept_eq
  | failed b rest ih => cases swept_eq
  | seen b rest ih =>
    cases swept_eq
    rw [List.forall_mem_cons, ih rfl]
    cases bound : b.isBound <;> simp [Look.isBound_eq (b := b), bound]

/-- All bindings were seen bound exactly if the last round found none that is not. -/
theorem Round.seenBound_iff {swept : Except String (List String)}
    (round : Round target names looks swept) (before : List Look) :
    SeenBound target names (before ++ looks) ↔ swept = .ok [] := by
  cases swept with
  | error reason =>
    obtain ⟨some, earlier, e, name, rfl⟩ := round.broken_off
    refine ⟨fun ⟨last, suffix, places, bound⟩ => ?_, nofun⟩
    -- The last round is not empty, so that the look that failed is its last one.
    have filled : last ≠ [] := by
      rintro rfl
      exact some (List.map_eq_nil_iff.1 places.symm)
    have ending : last.getLast filled = ⟨target, name, .error e⟩ := by
      rw [suffix.getLast filled]
      simp
    have seen := bound _ (List.getLast_mem filled)
    rw [ending] at seen
    cases seen
  | ok unbound =>
    rw [Except.ok.injEq, ← round.bound_iff]
    refine ⟨fun ⟨last, suffix, places, bound⟩ => ?_,
      fun bound => ⟨looks, List.suffix_append _ _, round.places, bound⟩⟩
    have long : last.length = looks.length := by
      rw [← List.length_map (f := Look.place), places, ← round.places, List.length_map]
    have whole := List.suffix_of_suffix_length_le suffix (List.suffix_append before looks)
      (Nat.le_of_eq long)
    exact whole.eq_of_length long ▸ bound

/-- Where all bindings were seen bound, each of them was there in the last round. -/
theorem SeenBound.last_look (seen : SeenBound target names looks) {name : String}
    (member : name ∈ names) :
    ∃ last b, last <:+ looks ∧ last.map Look.place = names.map (target, ·) ∧
      ⟨target, name, .ok b⟩ ∈ last ∧ b.phase = .bound := by
  obtain ⟨last, ending, places, bound⟩ := seen
  obtain ⟨⟨_, _, answer⟩, inside, place⟩ :=
    List.mem_map.1 (places ▸ List.mem_map_of_mem member)
  obtain ⟨rfl, rfl⟩ := Prod.mk.inj place
  have here := bound _ inside
  cases answer with
  | error e => cases here
  | ok b => exact ⟨last, b, ending, places, inside, beq_iff_eq.1 here⟩

/-- The wait ends well exactly if all bindings were seen bound. -/
theorem ends_wait {o : Options} {deadline : Option Duration} {patience : Nat}
    {result : Except Halt (Except String Unit)}
    (ends : Ends (wait o deadline names patience) log result) :
    ∃ looks, notes log = looks.map .look ∧ (result = .error .unfinished ∨
      ∃ waited, result = .ok waited ∧
        ∀ before, SeenBound o.target names (before ++ looks) ↔ waited = .ok ()) := by
  induction patience generalizing log result with
  | zero =>
    obtain ⟨rfl, same⟩ := ends
    exact ⟨[], rfl, .inl same.symm⟩
  | succ patience ih =>
    obtain ⟨h, halted, rfl⟩ | ⟨swept, first, rest, rfl, sweeping, ends⟩ := ends.of_bind
    · obtain ⟨_, _, -, same, -⟩ := round_sweep halted
      cases same
    obtain ⟨looks, _, noted, same, round⟩ := round_sweep sweeping
    cases same
    have last := round.seenBound_iff
    rw [notes_append, noted]
    cases swept with
    | error reason =>
      obtain ⟨rfl, rfl⟩ := ends.of_pure
      exact ⟨looks, List.append_nil _, .inr ⟨_, rfl, fun before => (last before).trans (by simp)⟩⟩
    | ok unbound =>
      cases unbound with
      | nil =>
        obtain ⟨rfl, rfl⟩ := ends.of_pure
        exact ⟨looks, List.append_nil _, .inr ⟨_, rfl, fun before => (last before).trans (by simp)⟩⟩
      | cons name names =>
        obtain ⟨now, later, rfl, going⟩ := ends.of_act_bind
        rw [notes_cons_of_none rfl]
        split at going
        · obtain ⟨rfl, rfl⟩ := going.of_pure
          exact ⟨looks, List.append_nil _,
            .inr ⟨_, rfl, fun before => (last before).trans (by simp)⟩⟩
        · -- What was seen in this round does not matter after the next one.
          obtain ⟨_, others, rfl, again⟩ := going.of_act_bind
          rw [notes_cons_of_none rfl]
          obtain ⟨more, noted, ended⟩ := ih again
          refine ⟨looks ++ more, by rw [noted, List.map_append], ended.imp_right ?_⟩
          rintro ⟨waited, rfl, seen⟩
          exact ⟨waited, rfl, fun before => List.append_assoc before looks more ▸ seen _⟩

theorem ends_waitUntilBound {o : Options} {patience : Nat}
    {result : Except Halt (Except String Unit)}
    (ends : Ends (waitUntilBound o names patience) log result) :
    ∃ looks, notes log = looks.map .look ∧ (result = .error .unfinished ∨
      ∃ waited, result = .ok waited ∧
        ∀ before, SeenBound o.target names (before ++ looks) ↔ waited = .ok ()) := by
  obtain ⟨start, later, rfl, going⟩ := ends.of_act_bind
  rw [notes_cons_of_none rfl]
  exact ends_wait going

/-- How the client waits for the created bindings, and what it says then. -/
inductive Awaited (o : Options) (entry : String) (names : List String) :
    List Note → Except Halt Unit → Prop where
  | unwaited (zero : o.timeout = .zero) : Awaited o entry names [] (.ok ())
  | bound {looks : List Look} (waits : o.timeout ≠ .zero)
      (seen : SeenBound o.target names looks) :
      Awaited o entry names (looks.map .look ++ [.told entry]) (.ok ())
  | unbound {looks : List Look} (waits : o.timeout ≠ .zero)
      (unseen : ¬ SeenBound o.target names looks) (reason : String) :
      Awaited o entry names (looks.map .look) (.error (.failed (.bindFailed entry reason)))
  | unfinished (looks : List Look) :
      Awaited o entry names (looks.map .look) (.error .unfinished)
  | unsaid (looks : List Look) (reason : String) :
      Awaited o entry names (looks.map .look ++ [.refused reason]) (denied reason)

theorem awaited {o : Options} {entry : String} {patience : Nat} {result : Except Halt Unit}
    (ends : Ends (await o entry names patience) log result) :
    Awaited o entry names (notes log) result := by
  unfold await at ends
  split at ends
  next zero =>
    have speaks := speaks_print (by simp [Aside, told?, boundLine]) ends
    generalize notes log = noted at speaks ⊢
    cases speaks with
    | said => exact .unwaited zero
    | refused reason => exact .unsaid [] reason
  next waits =>
    obtain ⟨h, halted, rfl⟩ | ⟨outcome, first, rest, rfl, waited, ended⟩ := ends.of_bind
    · obtain ⟨looks, noted, same | ⟨_, same, -⟩⟩ := ends_waitUntilBound halted
      · cases same
        rw [noted]
        exact .unfinished looks
      · cases same
    obtain ⟨looks, noted, same | ⟨_, same, seen⟩⟩ := ends_waitUntilBound waited
    · cases same
    cases same
    rw [notes_append, noted]
    cases outcome with
    | error reason =>
      obtain ⟨rfl, rfl⟩ := ended.of_fail
      rw [show notes [] = [] from rfl, List.append_nil]
      refine .unbound waits (fun all => ?_) reason
      cases (seen []).1 all
    | ok done =>
      obtain ⟨rfl, rfl⟩ | ⟨reason, rfl, rfl⟩ := ended.of_print
      · change Awaited _ _ _ (_ ++ notes [⟨.write (boundLine entry), .ok ()⟩]) _
        rw [notes_cons_of_some (note?_boundLine entry)]
        exact .bound waits ((seen []).2 rfl)
      · exact .unsaid looks reason

end Waiting

end Binding
end ApiCatalog
