import ApiCatalog.Proofs.Program
import ApiCatalog.Reconcile.Loop
import Mathlib.Data.List.Basic

/-!
# What the loop counts

The loop keeps counters and the number of failures in a row, and not the results themselves. Main
statement: this is enough for it to end just when the results of its passes say so (`run_ends`).
-/
namespace ApiCatalog
namespace Loop

section Kinds

def isUpdated : Except PassError Outcome → Bool
  | .ok (.statusUpdated ..) => true
  | _ => false

def isUnchanged : Except PassError Outcome → Bool
  | .ok (.unchanged _) => true
  | _ => false

def isGone : Except PassError Outcome → Bool
  | .ok .entryGone => true
  | _ => false

def isFailure : Except PassError Outcome → Bool
  | .ok _ => false
  | .error _ => true

end Kinds

/-- How many passes had which result. -/
def Stats.ofResults (results : List (Except PassError Outcome)) : Stats where
  processed := results.length
  updated := results.countP isUpdated
  unchanged := results.countP isUnchanged
  gone := results.countP isGone
  failed := results.countP isFailure

/-- The results end with so many failures. -/
def LastFailed (n : Nat) (results : List (Except PassError Outcome)) : Prop :=
  ∃ earlier last, results = earlier ++ last ∧ last.length = n ∧ ∀ r ∈ last, isFailure r = true

section Results

variable (results : List (Except PassError Outcome))

theorem Stats.ofResults_append_ok (outcome : Outcome) :
    Stats.ofResults (results ++ [.ok outcome]) = (Stats.ofResults results).record outcome := by
  cases outcome <;> simp [ofResults, record, List.countP_append, List.countP_singleton, isUpdated,
    isUnchanged, isGone, isFailure]

theorem Stats.ofResults_append_error (e : PassError) :
    Stats.ofResults (results ++ [.error e]) = (Stats.ofResults results).recordFailure := by
  simp [ofResults, recordFailure, List.countP_append, List.countP_singleton, isUpdated,
    isUnchanged, isGone, isFailure]

/-- Each pass has one of the four results. -/
theorem Stats.processed_ofResults :
    let stats := Stats.ofResults results
    stats.processed = stats.updated + stats.unchanged + stats.gone + stats.failed := by
  simp only [ofResults]
  induction results with
  | nil => rfl
  | cons r rest ih =>
    simp only [List.length_cons, List.countP_cons]
    rcases r with e | _ | _ | _ <;> simp [isUpdated, isUnchanged, isGone, isFailure] <;> omega

theorem lastFailed_zero : LastFailed 0 results :=
  ⟨results, [], (List.append_nil _).symm, rfl, nofun⟩

theorem not_lastFailed_nil (n : Nat) : ¬LastFailed (n + 1) [] := by
  rintro ⟨earlier, last, whole, length, -⟩
  obtain ⟨-, rfl⟩ := List.append_eq_nil_iff.1 whole.symm
  cases length

theorem lastFailed_append (n : Nat) (r : Except PassError Outcome) :
    LastFailed (n + 1) (results ++ [r]) ↔ isFailure r = true ∧ LastFailed n results := by
  constructor
  · rintro ⟨earlier, last, whole, length, failed⟩
    obtain ⟨front, r', rfl⟩ := List.eq_nil_or_concat' last |>.resolve_left
      (fun empty => by rw [empty] at length; cases length)
    rw [← List.append_assoc] at whole
    obtain ⟨rfl, same⟩ := List.append_inj' whole rfl
    obtain ⟨rfl⟩ := List.singleton_inj.1 same
    rw [List.length_append] at length
    exact ⟨failed r (List.mem_append_right _ List.mem_cons_self), earlier, front, rfl,
      Nat.succ.inj length, fun r' member => failed r' (List.mem_append_left _ member)⟩
  · rintro ⟨failure, earlier, last, rfl, rfl, failed⟩
    refine ⟨earlier, last ++ [r], List.append_assoc .., by simp, fun r' member => ?_⟩
    rcases List.mem_append.1 member with member | member
    · exact failed r' member
    · exact List.mem_singleton.1 member ▸ failure

end Results

/-- So many failures in a row end the loop, where a single one does not. -/
def Limits.inRow (limits : Limits) : Nat := max 1 limits.maxConsecutiveErrors

/-- Nothing in the results makes the loop end. -/
def Spares (limits : Limits) (results : List (Except PassError Outcome)) : Prop :=
  if limits.stopOnError then ∀ r ∈ results, isFailure r = false
  else ∀ k ≤ results.length, ¬LastFailed limits.inRow (results.take k)

/-- How the loop ends by the results that its passes have, if it makes them all: after so many of
them and in this way. -/
inductive Ends (limits : Limits) (results : List (Except PassError Outcome)) :
    Nat → Except PassError Stats → Prop where
  /-- With the first failure. -/
  | failed {k : Nat} {e : PassError} (strict : limits.stopOnError = true)
      (failure : results[k]? = some (.error e))
      (before : ∀ r ∈ results.take k, isFailure r = false) : Ends limits results (k + 1) (.error e)
  /-- With the first failure that makes enough of them in a row. -/
  | exhausted {k : Nat} (lenient : limits.stopOnError = false) (made : k ≤ results.length)
      (row : LastFailed limits.inRow (results.take k))
      (before : ∀ j < k, ¬LastFailed limits.inRow (results.take j)) :
      Ends limits results k (.error (.failed
        ("Max errors (" ++ toString limits.maxConsecutiveErrors ++ ") reached")))
  /-- With the last pass. -/
  | drained (spares : Spares limits results) :
      Ends limits results results.length (.ok (.ofResults results))

section Endings

variable {limits : Limits} {results : List (Except PassError Outcome)}

theorem spares_nil (limits : Limits) : Spares limits [] := by
  unfold Spares
  split
  · exact nofun
  · intro k _
    rw [List.take_nil, Limits.inRow, ← Nat.succ_pred_eq_of_pos (Nat.le_max_left 1 _)]
    exact not_lastFailed_nil _

theorem Spares.append (spares : Spares limits results) {r : Except PassError Outcome}
    (calm : if limits.stopOnError then isFailure r = false
      else ¬LastFailed limits.inRow (results ++ [r])) : Spares limits (results ++ [r]) := by
  unfold Spares at spares ⊢
  split at spares
  next strict =>
    rw [if_pos strict] at calm ⊢
    intro r' member
    rcases List.mem_append.1 member with member | member
    · exact spares r' member
    · exact List.mem_singleton.1 member ▸ calm
  next lenient =>
    rw [if_neg lenient] at calm ⊢
    intro k le
    rcases Nat.lt_or_eq_of_le le with less | rfl
    · rw [List.length_append, List.length_singleton] at less
      rw [List.take_append_of_le_length (Nat.le_of_lt_succ less)]
      exact spares k (Nat.le_of_lt_succ less)
    · rwa [List.take_length]

theorem Ends.le {made : Nat} {result : Except PassError Stats}
    (ends : Ends limits results made result) : made ≤ results.length := by
  cases ends with
  | failed strict failure before => exact (List.getElem?_eq_some_iff.1 failure).1
  | exhausted lenient made row before => exact made
  | drained spares => exact Nat.le_refl _

/-- What a loop that ends well has counted. -/
theorem Ends.of_ok {made : Nat} {stats : Stats} (ends : Ends limits results made (.ok stats)) :
    made = results.length ∧ stats = .ofResults results := by
  cases ends
  exact ⟨rfl, rfl⟩

end Endings

/-- The tally after passes with these results. -/
structure Counts (results : List (Except PassError Outcome)) (tally : Tally) : Prop where
  stats : tally.stats = .ofResults results
  row : ∀ n, LastFailed n results ↔ n ≤ tally.failuresInRow

section Rule

variable (limits : Limits) (tally : Tally)

theorem rule_error {e : PassError} (other : e ≠ .cancelled) :
    tally.rule limits (.error e) =
      if limits.stopOnError then .finish (.error e)
      else if limits.maxConsecutiveErrors ≤ tally.failuresInRow + 1 then
        .finish (.error (.failed
          ("Max errors (" ++ toString limits.maxConsecutiveErrors ++ ") reached")))
      else .proceed ⟨tally.stats.recordFailure, tally.failuresInRow + 1⟩ := by
  cases e with
  | cancelled => exact absurd rfl other
  | fetch | commit | failed | invalidConfig => rfl

/-- Only a cancelled pass lets the loop end well. -/
theorem rule_cases {r : Except PassError Outcome} (other : r ≠ .error .cancelled) :
    (∃ next, tally.rule limits r = .proceed next) ∨
      ∃ e, tally.rule limits r = .finish (.error e) := by
  cases r with
  | ok outcome => exact .inl ⟨_, rfl⟩
  | error e =>
    rw [rule_error limits tally fun cancelled => other (cancelled ▸ rfl)]
    split
    · exact .inr ⟨_, rfl⟩
    · split
      · exact .inr ⟨_, rfl⟩
      · exact .inl ⟨_, rfl⟩

end Rule

section Counting

variable {limits : Limits} {results : List (Except PassError Outcome)} {tally : Tally}

theorem counts_zero : Counts [] .zero := by
  refine ⟨rfl, fun n => ?_⟩
  cases n with
  | zero => exact iff_of_true (lastFailed_zero []) (Nat.le_refl 0)
  | succ n => exact iff_of_false (not_lastFailed_nil n) (Nat.not_succ_le_zero n)

theorem Counts.ok (counts : Counts results tally) (outcome : Outcome) :
    Counts (results ++ [.ok outcome]) ⟨tally.stats.record outcome, 0⟩ := by
  refine ⟨by rw [counts.stats, Stats.ofResults_append_ok], fun n => ?_⟩
  cases n with
  | zero => exact iff_of_true (lastFailed_zero _) (Nat.le_refl 0)
  | succ n =>
    rw [lastFailed_append]
    exact iff_of_false (fun failed => nomatch failed.1) (Nat.not_succ_le_zero n)

theorem Counts.error (counts : Counts results tally) (e : PassError) :
    Counts (results ++ [.error e]) ⟨tally.stats.recordFailure, tally.failuresInRow + 1⟩ := by
  refine ⟨by rw [counts.stats, Stats.ofResults_append_error], fun n => ?_⟩
  cases n with
  | zero => exact iff_of_true (lastFailed_zero _) (Nat.zero_le _)
  | succ n =>
    rw [lastFailed_append, counts.row]
    exact (and_iff_right rfl).trans Nat.succ_le_succ_iff.symm

/-- One failure more, and whether it is one too many. -/
theorem Counts.due_iff (counts : Counts results tally) (e : PassError) :
    LastFailed limits.inRow (results ++ [.error e]) ↔
      limits.maxConsecutiveErrors ≤ tally.failuresInRow + 1 := by
  rw [(counts.error e).row, Limits.inRow, Nat.max_le]
  exact and_iff_right (Nat.le_add_left ..)

end Counting

/-- What the rule makes of a result, given those before it. -/
inductive Rules (limits : Limits) (past : List (Except PassError Outcome))
    (r : Except PassError Outcome) : Ruling → Prop where
  | proceed {tally : Tally} (counts : Counts (past ++ [r]) tally)
      (spares : Spares limits (past ++ [r])) : Rules limits past r (.proceed tally)
  | finish {result : Except PassError Stats}
      (ends : ∀ later, Ends limits (past ++ r :: later) (past.length + 1) result) :
      Rules limits past r (.finish result)

section Passes

variable {limits : Limits} {past : List (Except PassError Outcome)} {tally : Tally}
variable {r : Except PassError Outcome}

theorem rules_failure (counts : Counts past tally) (spares : Spares limits past) {e : PassError}
    (other : e ≠ .cancelled) : Rules limits past (.error e) (tally.rule limits (.error e)) := by
  rw [rule_error limits tally other]
  cases strict : limits.stopOnError with
  | true =>
    rw [Spares, if_pos strict] at spares
    refine .finish fun later => .failed strict ?_ ?_
    · simp
    · rwa [List.take_left]
  | false =>
    rw [if_neg Bool.false_ne_true]
    split
    next due =>
      rw [Spares, strict] at spares
      refine .finish fun later => .exhausted strict (by simp) ?_ fun j less => ?_
      · rw [List.append_cons, List.take_left' (by simp)]
        exact (counts.due_iff e).2 due
      · have le := Nat.le_of_lt_succ less
        rw [List.take_append_of_le_length le]
        exact spares j le
    next undue =>
      refine .proceed (counts.error e) (spares.append ?_)
      rw [strict]
      exact fun failed => undue ((counts.due_iff e).1 failed)

theorem rules (counts : Counts past tally) (spares : Spares limits past)
    (other : r ≠ .error .cancelled) : Rules limits past r (tally.rule limits r) := by
  cases r with
  | error e => exact rules_failure counts spares fun cancelled => other (cancelled ▸ rfl)
  | ok outcome =>
    refine .proceed (counts.ok outcome) (spares.append ?_)
    split
    · rfl
    · rw [Limits.inRow, ← Nat.succ_pred_eq_of_pos (Nat.le_max_left 1 _), lastFailed_append]
      exact fun failed => nomatch failed.1

end Passes

section Running

variable {σ : Type} (pass : Request → StateM σ (Except PassError Outcome))

/-- The results of all the passes, made one after the other. -/
def resultsOf : List Request → σ → List (Except PassError Outcome)
  | [], _ => []
  | request :: rest, s => (pass request s).1 :: resultsOf rest (pass request s).2

/-- The state after all the passes. -/
def stateAfter : List Request → σ → σ
  | [], s => s
  | request :: rest, s => stateAfter rest (pass request s).2

theorem length_resultsOf (requests : List Request) (s : σ) :
    (resultsOf pass requests s).length = requests.length := by
  induction requests generalizing s with
  | nil => rfl
  | cons request rest ih => rw [resultsOf, List.length_cons, List.length_cons, ih]

variable (limits : Limits) (stopped : StateM σ Bool)

theorem run_nil (tally : Tally) (s : σ) :
    run limits stopped pass tally [] s = ((.ok tally.stats, []), s) := rfl

/-- What the loop does with its next request. -/
theorem run_cons (tally : Tally) (request : Request) (rest : List Request) (s : σ) :
    run limits stopped pass tally (request :: rest) s =
      if (stopped s).1 then ((.ok tally.stats, request :: rest), (stopped s).2)
      else
        let made := pass request (stopped s).2
        match tally.rule limits made.1 with
        | .proceed tally => run limits stopped pass tally rest made.2
        | .finish result => ((result, rest), made.2) := by
  change (if (stopped s).1 = true then _ else _ : StateM σ _) (stopped s).2 = _
  split
  · rfl
  · change (match tally.rule limits (pass request (stopped s).2).1 with
      | .proceed tally => run limits stopped pass tally rest
      | .finish result => pure (result, rest)) (pass request (stopped s).2).2 = _
    dsimp only
    cases tally.rule limits (pass request (stopped s).2).1 with
    | proceed tally => rfl
    | finish result => rfl

/-- What a loop without a signal does with its next request. -/
theorem run_cons_never (tally : Tally) (request : Request) (rest : List Request) (s : σ) :
    run limits (pure false) pass tally (request :: rest) s =
      match tally.rule limits (pass request s).1 with
      | .proceed tally => run limits (pure false) pass tally rest (pass request s).2
      | .finish result => ((result, rest), (pass request s).2) :=
  run_cons ..

variable {pass}

/-- The loop goes on from the results of the passes made so far. -/
theorem run_ends_after {requests : List Request} {s : σ} {tally : Tally}
    {past : List (Except PassError Outcome)} (counts : Counts past tally)
    (spares : Spares limits past)
    (uncancelled : ∀ r ∈ resultsOf pass requests s, r ≠ .error .cancelled) :
    ∃ made result,
      Ends limits (past ++ resultsOf pass requests s) (past.length + made) result ∧
      run limits (pure false) pass tally requests s =
        ((result, requests.drop made), stateAfter pass (requests.take made) s) := by
  induction requests generalizing s tally past with
  | nil =>
    refine ⟨0, _, ?_, run_nil ..⟩
    rw [resultsOf, List.append_nil, counts.stats]
    exact .drained spares
  | cons request rest ih =>
    have first := rules counts spares (uncancelled _ List.mem_cons_self)
    rw [run_cons_never, resultsOf]
    generalize tally.rule limits (pass request s).1 = ruling at first
    cases first with
    | finish ends => exact ⟨1, _, ends _, rfl⟩
    | proceed counts spares =>
      obtain ⟨made, result, ends, ran⟩ :=
        ih counts spares fun r member => uncancelled r (List.mem_cons_of_mem _ member)
      refine ⟨made + 1, result, ?_, ran⟩
      rwa [← List.append_cons, List.length_append, List.length_singleton, Nat.add_assoc,
        Nat.add_comm 1] at ends

/-- A loop that nobody stops. -/
theorem run_ends {requests : List Request} {s : σ}
    (uncancelled : ∀ r ∈ resultsOf pass requests s, r ≠ .error .cancelled) :
    ∃ made result, Ends limits (resultsOf pass requests s) made result ∧
      run limits (pure false) pass .zero requests s =
        ((result, requests.drop made), stateAfter pass (requests.take made) s) := by
  obtain ⟨made, result, ends, ran⟩ :=
    run_ends_after limits counts_zero (spares_nil limits) uncancelled
  rw [List.nil_append, List.length_nil, Nat.zero_add] at ends
  exact ⟨made, result, ends, ran⟩

end Running
end Loop
end ApiCatalog
