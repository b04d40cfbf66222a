import ApiCatalog.Proofs.Reconcile.Cancellation
import ApiCatalog.Proofs.Reconcile.Tally

/-!
# Stopping the loop

The stop signal is looked at before each request is taken, and it is the signal of every pass.
Whoever else uses the store may do so at any step, steps may fail in any way, and a step that is
given up may have had a part of its effect. Main statement: the loop ends when the results of its
passes or the signal say so, and it counts just the passes that were not cancelled
(`loop_ends_when_due`).
-/
namespace ApiCatalog
namespace Loop

open Pass (Onset)

/-- What passes work with. -/
structure Site (σ : Type) extends Pass.Service σ where
  policy : SchemaPolicy
  clock : σ → Instant

/-- When the stop signal comes up. The passes of the loop are numbered from 0. -/
inductive Stop where
  | never
  /-- Before the request of the pass is taken. -/
  | before (pass : Nat)
  /-- During the pass, or right after it. -/
  | during (pass : Nat) (onset : Onset)
  deriving DecidableEq

namespace Stop

/-- The signal is up when the loop looks for the next request, after so many passes. -/
def isUp (passes : Nat) : Stop → Bool
  | never => false
  | before pass => pass ≤ passes
  | during pass _ => pass < passes

/-- When it comes up for a pass. -/
def onset (pass : Nat) : Stop → Onset
  | never => .never
  | before first => if first ≤ pass then .before 0 else .never
  | during first onset =>
    if first = pass then onset else if first < pass then .before 0 else .never

end Stop

/-- A loop at work, with the number of passes it has made. -/
structure Scene (σ : Type) where
  state : σ
  passes : Nat

namespace Site

variable {σ : Type} (site : Site σ)

/-- The steps of a pass and what it does after each. -/
def program (request : Request) (s : σ) : Program Pass.Step.Answer (Except PassError Outcome) :=
  reconcile site.policy (site.clock s) request

/-- A pass whose signal comes up at some time. -/
def guardedPass (onset : Onset) (request : Request) (s : σ) : Except PassError Outcome × σ :=
  let ended := site.toService.guardedPass onset (site.program request s) s
  (ended.1, ended.2.state)

/-- A pass without a signal. -/
def freePass (request : Request) : StateM σ (Except PassError Outcome) := fun s =>
  (site.program request s).run site.serve s

/-- The number of steps of a pass without a signal. -/
def steps (request : Request) (s : σ) : Nat :=
  (site.stepsOf (site.program request s) s).length

/-- The loop that is stopped at some time, with the requests that are left. -/
def runUntil (limits : Limits) (stop : Stop) :
    Tally → List Request → StateM (Scene σ) (Except PassError Stats × List Request) :=
  run limits (fun w => (stop.isUp w.passes, w)) fun request w =>
    let ended := site.guardedPass (stop.onset w.passes) request w.state
    (ended.1, ⟨ended.2, w.passes + 1⟩)

section Passes

variable {onset : Onset}

theorem guardedPass_of_late {request : Request} {s : σ}
    (late : ¬onset.InTime (site.steps request s)) :
    site.guardedPass onset request s = site.freePass request s := by
  unfold guardedPass
  rw [site.toService.pass_of_late late]
  rfl

theorem guardedPass_of_inTime {request : Request} {s : σ}
    (inTime : onset.InTime (site.steps request s)) :
    (site.guardedPass onset request s).1 = .error .cancelled := by
  obtain ⟨s', given, -⟩ := site.toService.pass_of_inTime inTime
  exact congrArg Prod.fst given

/-- No pass is cancelled that has no signal. -/
theorem freePass_ne_cancelled (request : Request) (s : σ) :
    (site.freePass request s).1 ≠ .error .cancelled := by
  have ensures : (site.program request s).Ensures (fun _ _ => True) (· ≠ .error .cancelled) := by
    intro fetched _
    cases fetched with
    | error e =>
      change (if e.isNotFound then _ else _ : Except PassError Outcome) ≠ _
      split <;> exact nofun
    | ok entry =>
      refine Program.Ensures.bind (Program.ensures_true _) fun d _ => ?_
      unfold Pass.commit
      split
      · exact nofun
      · intro answer _
        cases answer <;> exact nofun
  exact ensures.run site.serve s

theorem results_ne_cancelled (requests : List Request) (s : σ) :
    ∀ r ∈ resultsOf site.freePass requests s, r ≠ .error .cancelled := by
  induction requests generalizing s with
  | nil => exact nofun
  | cons request rest ih =>
    exact List.forall_mem_cons.2 ⟨site.freePass_ne_cancelled request s, ih _⟩

end Passes

/-- No guard comes to see the signal in these passes, nor does the loop see it before them. -/
def Unseen (stop : Stop) : List Request → Scene σ → Prop
  | [], _ => True
  | request :: rest, w =>
    stop.isUp w.passes = false ∧ ¬(stop.onset w.passes).InTime (site.steps request w.state) ∧
      Unseen stop rest ⟨(site.freePass request w.state).2, w.passes + 1⟩

section Fronts

variable {limits : Limits} {stop : Stop}

theorem runUntil_cons (tally : Tally) (request : Request) (rest : List Request) (w : Scene σ) :
    site.runUntil limits stop tally (request :: rest) w =
      if stop.isUp w.passes then ((.ok tally.stats, request :: rest), w)
      else
        let ended := site.guardedPass (stop.onset w.passes) request w.state
        match tally.rule limits ended.1 with
        | .proceed tally => site.runUntil limits stop tally rest ⟨ended.2, w.passes + 1⟩
        | .finish result => ((result, rest), ⟨ended.2, w.passes + 1⟩) :=
  run_cons ..

/-- The loop ends with an error, or it comes to the requests behind. -/
theorem runUntil_front (limits : Limits) {front : List Request} (back : List Request)
    (tally : Tally) (w : Scene σ) (unseen : site.Unseen stop front w) :
    (∃ e made s, made ≤ front.length ∧
      run limits (pure false) site.freePass tally front w.state =
        ((.error e, front.drop made), s) ∧
      site.runUntil limits stop tally (front ++ back) w =
        ((.error e, front.drop made ++ back), ⟨s, w.passes + made⟩)) ∨
    ∃ tally' s,
      run limits (pure false) site.freePass tally front w.state = ((.ok tally'.stats, []), s) ∧
      site.runUntil limits stop tally (front ++ back) w =
        site.runUntil limits stop tally' back ⟨s, w.passes + front.length⟩ := by
  induction front generalizing tally w with
  | nil => exact .inr ⟨tally, w.state, rfl, rfl⟩
  | cons request front ih =>
    obtain ⟨down, late, unseen⟩ := unseen
    rw [List.cons_append, runUntil_cons, down, if_neg Bool.false_ne_true, run_cons_never,
      guardedPass_of_late site late]
    dsimp only
    rcases rule_cases limits tally (site.freePass_ne_cancelled request w.state) with
      ⟨next, ruled⟩ | ⟨e, ruled⟩
    · rw [ruled]
      dsimp only
      rcases ih next _ unseen with ⟨e, made, s, le, ran, ended⟩ | ⟨last, s, ran, ended⟩
      · refine .inl ⟨e, made + 1, s, Nat.succ_le_succ le, ran, ?_⟩
        rw [ended, List.drop_succ_cons, Nat.add_assoc, Nat.add_comm 1]
      · refine .inr ⟨last, s, ran, ?_⟩
        rw [ended, List.length_cons, Nat.add_assoc, Nat.add_comm 1]
    · rw [ruled]
      exact .inl ⟨e, 1, _, Nat.le_add_left .., rfl, rfl⟩

theorem unseen_never (front : List Request) (w : Scene σ) : site.Unseen .never front w := by
  induction front generalizing w with
  | nil => trivial
  | cons request front ih => exact ⟨rfl, id, ih _⟩

theorem unseen_before {pass : Nat} (front : List Request) (w : Scene σ)
    (le : w.passes + front.length ≤ pass) : site.Unseen (.before pass) front w := by
  induction front generalizing w with
  | nil => trivial
  | cons request front ih =>
    rw [List.length_cons] at le
    refine ⟨decide_eq_false (by omega), ?_, ih _ (by dsimp only; omega)⟩
    rw [Stop.onset, if_neg (by omega)]
    exact id

theorem unseen_during {pass : Nat} {onset : Onset} (front : List Request) (w : Scene σ)
    (le : w.passes + front.length ≤ pass) : site.Unseen (.during pass onset) front w := by
  induction front generalizing w with
  | nil => trivial
  | cons request front ih =>
    rw [List.length_cons] at le
    refine ⟨decide_eq_false (by omega), ?_, ih _ (by dsimp only; omega)⟩
    rw [Stop.onset, if_neg (by omega), if_neg (by omega)]
    exact id

/-- The signal does not show in the pass either. -/
theorem unseen_during_late {pass : Nat} {onset : Onset} (front : List Request) (request : Request)
    (w : Scene σ) (passes : w.passes + front.length = pass)
    (late : ¬onset.InTime (site.steps request (stateAfter site.freePass front w.state))) :
    site.Unseen (.during pass onset) (front ++ [request]) w := by
  induction front generalizing w with
  | nil =>
    rw [List.length_nil, Nat.add_zero] at passes
    subst passes
    refine ⟨decide_eq_false (Nat.lt_irrefl _), ?_, trivial⟩
    rwa [Stop.onset, if_pos rfl]
  | cons first front ih =>
    rw [List.length_cons] at passes
    refine ⟨decide_eq_false (by omega), ?_, ih _ (by dsimp only; omega) late⟩
    rw [Stop.onset, if_neg (by omega), if_neg (by omega)]
    exact id

end Fronts

/-- How many passes the signal lets finish, and the request whose pass it cancels, if there is
one. -/
inductive Lets (requests : List Request) (s : σ) : Stop → Nat → Option Request → Prop where
  | never : Lets requests s .never requests.length none
  | before (pass : Nat) : Lets requests s (.before pass) (min pass requests.length) none
  | inTime {pass : Nat} {onset : Onset} {request : Request}
      (next : requests[pass]? = some request)
      (inTime : onset.InTime
        (site.steps request (stateAfter site.freePass (requests.take pass) s))) :
      Lets requests s (.during pass onset) pass (some request)
  | late {pass : Nat} {onset : Onset} {request : Request}
      (next : requests[pass]? = some request)
      (late : ¬onset.InTime
        (site.steps request (stateAfter site.freePass (requests.take pass) s))) :
      Lets requests s (.during pass onset) (pass + 1) none
  /-- There is no such pass. -/
  | behind {pass : Nat} {onset : Onset} (none_left : requests.length ≤ pass) :
      Lets requests s (.during pass onset) requests.length none

/-- How the loop ends, with the requests that are left and the state of its surroundings, if so
many passes may finish and one may be cancelled. -/
inductive Halts (limits : Limits) (requests : List Request) (s : σ) (stop : Stop) (finished : Nat) :
    Option Request → (Except PassError Stats × List Request) × Scene σ → Prop where
  /-- Passes that failed make it end before it comes to the signal. -/
  | failed {cancelled : Option Request} {made : Nat} {e : PassError}
      (ends : Ends limits (resultsOf site.freePass (requests.take finished) s) made (.error e)) :
      Halts limits requests s stop finished cancelled
        ((.error e, requests.drop made),
          ⟨stateAfter site.freePass (requests.take made) s, made⟩)
  /-- No request is left, or the loop sees the signal before the next one. -/
  | stopped {stats : Stats}
      (ends : Ends limits (resultsOf site.freePass (requests.take finished) s) finished
        (.ok stats)) :
      Halts limits requests s stop finished none
        ((.ok stats, requests.drop finished),
          ⟨stateAfter site.freePass (requests.take finished) s, finished⟩)
  /-- The pass in flight is given up and not counted. -/
  | cancelled {request : Request} {stats : Stats} {s' : σ}
      (ends : Ends limits (resultsOf site.freePass (requests.take finished) s) finished
        (.ok stats))
      (given : site.guardedPass (stop.onset finished) request
        (stateAfter site.freePass (requests.take finished) s) = (.error .cancelled, s')) :
      Halts limits requests s stop finished (some request)
        ((.ok stats, requests.drop (finished + 1)), ⟨s', finished + 1⟩)

section Halting

variable {limits : Limits} {stop : Stop} {requests : List Request} {s : σ} {finished : Nat}

/-- The requests before the signal are handled as if there were none. -/
theorem halts_of_unseen {cancelled : Option Request} (le : finished ≤ requests.length)
    (unseen : site.Unseen stop (requests.take finished) ⟨s, 0⟩)
    (behind : ∀ tally : Tally, Ends limits (resultsOf site.freePass (requests.take finished) s)
        finished (.ok tally.stats) →
      site.Halts limits requests s stop finished cancelled
        (site.runUntil limits stop tally (requests.drop finished)
          ⟨stateAfter site.freePass (requests.take finished) s, finished⟩)) :
    site.Halts limits requests s stop finished cancelled
      (site.runUntil limits stop .zero requests ⟨s, 0⟩) := by
  obtain ⟨made, result, ends, calm⟩ :=
    run_ends limits (site.results_ne_cancelled (requests.take finished) s)
  have length := List.length_take_of_le le
  have few := ends.le
  rw [length_resultsOf] at few
  have whole := site.runUntil_front limits (requests.drop finished) .zero ⟨s, 0⟩ unseen
  rw [List.take_append_drop, length] at whole
  rcases whole with ⟨e, made', s', few', ran, ended⟩ | ⟨tally, s', ran, ended⟩
  · obtain ⟨same, rfl⟩ := Prod.mk.inj (calm.symm.trans ran)
    obtain ⟨rfl, left⟩ := Prod.mk.inj same
    obtain rfl : made = made' := by
      have lengths := congrArg List.length left
      simp only [List.length_drop, length] at lengths
      omega
    rw [ended, Nat.zero_add, ← List.drop_append_of_le_length few, List.take_append_drop,
      List.take_take, Nat.min_eq_left (length ▸ few)]
    exact .failed ends
  · obtain ⟨same, rfl⟩ := Prod.mk.inj (calm.symm.trans ran)
    obtain ⟨rfl, left⟩ := Prod.mk.inj same
    have all := ends.of_ok.1
    rw [length_resultsOf, length] at all
    subst all
    rw [ended, Nat.zero_add, List.take_take, Nat.min_self]
    exact behind tally ends

/-- The loop does not take the next request. -/
theorem halts_stopped (seen : stop.isUp finished = true ∨ requests.length ≤ finished)
    (tally : Tally)
    (ends : Ends limits (resultsOf site.freePass (requests.take finished) s) finished
      (.ok tally.stats)) :
    site.Halts limits requests s stop finished none
      (site.runUntil limits stop tally (requests.drop finished)
        ⟨stateAfter site.freePass (requests.take finished) s, finished⟩) := by
  have ended : site.runUntil limits stop tally (requests.drop finished)
      ⟨stateAfter site.freePass (requests.take finished) s, finished⟩ =
        ((.ok tally.stats, requests.drop finished),
          ⟨stateAfter site.freePass (requests.take finished) s, finished⟩) := by
    rcases seen with up | none_left
    · cases requests.drop finished with
      | nil => rfl
      | cons request rest => rw [runUntil_cons, if_pos up]
    · rw [List.drop_of_length_le none_left]
      rfl
  rw [ended]
  exact .stopped ends

/-- The loop takes the next request, and its pass is given up. -/
theorem halts_cancelled {onset : Onset} {request : Request}
    (next : requests[finished]? = some request)
    (inTime : onset.InTime
      (site.steps request (stateAfter site.freePass (requests.take finished) s)))
    (tally : Tally)
    (ends : Ends limits (resultsOf site.freePass (requests.take finished) s) finished
      (.ok tally.stats)) :
    site.Halts limits requests s (.during finished onset) finished (some request)
      (site.runUntil limits (.during finished onset) tally (requests.drop finished)
        ⟨stateAfter site.freePass (requests.take finished) s, finished⟩) := by
  obtain ⟨less, rfl⟩ := List.getElem?_eq_some_iff.1 next
  have down : (Stop.during finished onset).isUp finished = false :=
    decide_eq_false (Nat.lt_irrefl _)
  have here : (Stop.during finished onset).onset finished = onset := if_pos rfl
  have given := site.guardedPass_of_inTime inTime
  rw [List.drop_eq_getElem_cons less, runUntil_cons, down, if_neg Bool.false_ne_true, here]
  dsimp only
  rw [given]
  exact .cancelled ends (here.symm ▸ Prod.ext given rfl)

theorem halts (limits : Limits) (stop : Stop) (requests : List Request) (s : σ) :
    ∃ finished cancelled, site.Lets requests s stop finished cancelled ∧
      site.Halts limits requests s stop finished cancelled
        (site.runUntil limits stop .zero requests ⟨s, 0⟩) := by
  cases stop with
  | never =>
    exact ⟨_, _, .never, site.halts_of_unseen (Nat.le_refl _) (site.unseen_never _ _)
      (site.halts_stopped (.inr (Nat.le_refl _)))⟩
  | before pass =>
    refine ⟨_, _, .before pass, site.halts_of_unseen (Nat.min_le_right ..)
      (site.unseen_before _ _ ?_) (site.halts_stopped ?_)⟩
    · rw [List.length_take, Nat.zero_add]
      omega
    · rcases Nat.le_total pass requests.length with le | le
      · exact .inl (decide_eq_true (Nat.le_min.2 ⟨Nat.le_refl _, le⟩))
      · exact .inr (Nat.le_min.2 ⟨le, Nat.le_refl _⟩)
  | during pass onset =>
    cases next : requests[pass]? with
    | none =>
      have none_left := List.getElem?_eq_none_iff.1 next
      refine ⟨_, _, .behind none_left, site.halts_of_unseen (Nat.le_refl _)
        (site.unseen_during _ _ ?_) (site.halts_stopped (.inr (Nat.le_refl _)))⟩
      rwa [List.take_length, Nat.zero_add]
    | some request =>
      have less := (List.getElem?_eq_some_iff.1 next).1
      have length := List.length_take_of_le (Nat.le_of_lt less)
      by_cases inTime : onset.InTime
        (site.steps request (stateAfter site.freePass (requests.take pass) s))
      · refine ⟨_, _, .inTime next inTime, site.halts_of_unseen (Nat.le_of_lt less)
          (site.unseen_during _ _ ?_) (site.halts_cancelled next inTime)⟩
        exact Nat.le_of_eq ((Nat.zero_add _).trans length)
      · refine ⟨_, _, .late next inTime, site.halts_of_unseen less ?_
          (site.halts_stopped (.inl (decide_eq_true (Nat.lt_succ_self pass))))⟩
        rw [List.take_add_one, next]
        exact site.unseen_during_late _ request ⟨s, 0⟩ (by rw [length, Nat.zero_add]) inTime

end Halting
end Site

/-- Without a signal, and whatever the results of the passes are, the loop makes passes in the order
of the requests until the first failure, or the first that makes enough of them in a row, or the
last request; and it leaves the requests behind. What it counts in a run that ends well are the
results of the passes. A signal lets as many passes finish as have done so when it comes up, those
whose last step the store serves then included. If these do not make the loop end with an error,
then no further request is started, a pass in flight is cancelled, and only those that have finished
are counted. -/
theorem loop_ends_when_due {σ : Type} (limits : Limits) (requests : List Request) (s : σ) :
    (∀ pass : Request → StateM σ (Except PassError Outcome),
      (∀ r ∈ resultsOf pass requests s, r ≠ .error .cancelled) →
      ∃ made result, Ends limits (resultsOf pass requests s) made result ∧
        run limits (pure false) pass .zero requests s =
          ((result, requests.drop made), stateAfter pass (requests.take made) s)) ∧
    (∀ (site : Site σ) (stop : Stop), ∃ finished cancelled,
      site.Lets requests s stop finished cancelled ∧
      site.Halts limits requests s stop finished cancelled
        (site.runUntil limits stop .zero requests ⟨s, 0⟩)) ∧
    ∀ results made stats, Ends limits results made (.ok stats) →
      made = results.length ∧ stats = .ofResults results ∧
        stats.processed = stats.updated + stats.unchanged + stats.gone + stats.failed := by
  refine ⟨fun pass uncancelled => run_ends limits uncancelled,
    fun site stop => site.halts limits stop requests s, fun results made stats ends => ?_⟩
  obtain ⟨all, rfl⟩ := ends.of_ok
  exact ⟨all, rfl, Stats.processed_ofResults results⟩

namespace Sample

/-- Passes that end one after the other as the list has it. -/
def replay (_ : Request) :
    StateM (List (Except PassError Outcome)) (Except PassError Outcome)
  | [] => (.ok .entryGone, [])
  | r :: rest => (r, rest)

/-- The success between the failures is in time, but not a second time. -/
def script : List (Except PassError Outcome) :=
  [.error (.failed "first"), .ok (.unchanged []), .error (.failed "second"),
    .error (.failed "third"), .ok .entryGone]

def limits : Limits := ⟨2, false⟩

def requests : List Request := List.replicate 5 Memory.Sample.request

def site : Site Memory := ⟨Memory.service, .drop, fun _ => .epoch⟩

end Sample

theorem loop_ends_when_due_sample :
    (∀ r ∈ resultsOf Sample.replay Sample.requests Sample.script, r ≠ .error .cancelled) ∧
    Ends Sample.limits Sample.script 4 (.error (.failed "Max errors (2) reached")) ∧
    run Sample.limits (pure false) Sample.replay .zero Sample.requests Sample.script =
      ((.error (.failed "Max errors (2) reached"), [Memory.Sample.request]),
        [.ok .entryGone]) := by
  have uncancelled :
      ∀ r ∈ resultsOf Sample.replay Sample.requests Sample.script, r ≠ .error .cancelled := by
    decide +kernel
  have computed : run Sample.limits (pure false) Sample.replay .zero Sample.requests Sample.script =
      ((.error (.failed "Max errors (2) reached"), [Memory.Sample.request]),
        [.ok .entryGone]) := rfl
  obtain ⟨made, result, ends, ran⟩ :=
    (loop_ends_when_due Sample.limits Sample.requests Sample.script).1 Sample.replay uncancelled
  obtain ⟨same, -⟩ := Prod.mk.inj (ran.symm.trans computed)
  obtain ⟨rfl, left⟩ := Prod.mk.inj same
  have le := ends.le
  have lengths := congrArg List.length left
  rw [length_resultsOf] at le
  simp only [List.length_drop, Sample.requests, List.length_replicate, List.length_singleton]
    at le lengths
  obtain rfl : made = 4 := by omega
  exact ⟨uncancelled, ends, computed⟩

/-- The signal comes up before the last step of the pass, its commit, has ended. But the store
serves it in one go, and the pass is not cancelled but counted. -/
theorem served_commit_counted :
    let ended := Sample.site.runUntil Sample.limits (.during 0 (.serving 3)) .zero
      [Memory.Sample.request] ⟨Memory.Sample.store, 0⟩
    (Onset.serving 3).PrecedesEnd
        (Sample.site.steps Memory.Sample.request Memory.Sample.store) ∧
      ended.1 = (.ok ⟨1, 1, 0, 0, 0⟩, []) ∧
      ended.2.state.statusWrites = Memory.Sample.store.statusWrites + 1 := by
  have four : Sample.site.steps Memory.Sample.request Memory.Sample.store = 4 := by rfl
  refine ⟨four ▸ (by decide : 3 < 4), ?_, ?_⟩
  · decide +kernel
  · decide +kernel

end Loop
end ApiCatalog
