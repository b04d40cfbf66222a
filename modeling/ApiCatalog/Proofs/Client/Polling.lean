import ApiCatalog.Proofs.Client.Waiting

/-!
# How long a wait for bindings lasts

Time goes by only while a client sleeps between two rounds of looks. Main statement: whatever it
sees, the client ends in the first round in which all bindings are bound, one cannot be read, or the
time is up (`wait_exact`).
-/
namespace ApiCatalog
namespace Binding

open Client

/-- What is seen of a binding, by the round and by the number of looks taken before in it. -/
abbrev Sight := Nat → Nat → Partition → String → Except StoreError ApiBinding

/-- A round, the number of looks that were taken in it, and the time. -/
structure Moment where
  round : Nat
  looks : Nat
  time : Duration

/-- Each sleep takes its time, and then a new round begins. -/
def watching (seen : Sight) : (action : Action) → StateM Moment action.Answer
  | .call (.getBinding partition name) => fun m =>
    (seen m.round m.looks partition name, { m with looks := m.looks + 1 })
  | .call c => pure (c.failed (.unavailable "no other call is served"))
  | .write _ => pure (.ok ())
  | .flush => pure (.ok ())
  | .clock => fun m => (m.time, m)
  | .sleep length => fun m => ((), ⟨m.round + 1, 0, m.time + length⟩)

section Sweeps

def Look.failure? (l : Look) : Option StoreError :=
  match l.answer with
  | .ok _ => none
  | .error e => some e

/-- The error of the first look that has failed. -/
def failure? (looks : List Look) : Option StoreError := looks.findSome? Look.failure?

/-- The names of the bindings that are not bound. -/
def unbound (looks : List Look) : List String := (looks.filter (!·.isBound)).map (·.name)

/-- What a round of looks gives. -/
def swept (looks : List Look) : Except String (List String) :=
  match failure? looks with
  | some e => .error e.message
  | none => .ok (unbound looks)

/-- The looks of a round at these bindings, if some have been taken before. -/
def looksFrom (seen : Sight) (target : Partition) (round taken : Nat) (names : List String) :
    List Look :=
  names.mapIdx fun i name => ⟨target, name, seen round (taken + i) target name⟩

variable {seen : Sight} {target : Partition} {looks : List Look}

theorem failure?_eq_none_of_bound (bound : ∀ l ∈ looks, l.isBound) : failure? looks = none := by
  refine List.findSome?_eq_none_iff.2 fun l member => ?_
  obtain ⟨partition, name, answer⟩ := l
  have here := bound _ member
  cases answer with
  | error e => cases here
  | ok b => rfl

theorem unbound_eq_nil_iff : unbound looks = [] ↔ ∀ l ∈ looks, l.isBound := by
  simp [unbound]

theorem failure?_cons {l : Look} {b : ApiBinding} (read : l.answer = .ok b) :
    failure? (l :: looks) = failure? looks := by
  rw [failure?, List.findSome?_cons, Look.failure?, read]
  rfl

theorem swept_cons {l : Look} {b : ApiBinding} (read : l.answer = .ok b) : swept (l :: looks) =
    (swept looks).map fun unbound => if b.isBound then unbound else l.name :: unbound := by
  rw [swept, swept, failure?_cons read]
  cases failure? looks with
  | some e => rfl
  | none => cases bound : b.isBound <;> simp [unbound, Look.isBound_eq read, bound, Except.map]

theorem looksFrom_cons (round taken : Nat) (name : String) (names : List String) :
    looksFrom seen target round taken (name :: names) =
      ⟨target, name, seen round taken target name⟩ ::
        looksFrom seen target round (taken + 1) names := by
  simp only [looksFrom, List.mapIdx_cons, Nat.add_zero, Nat.add_assoc, Nat.add_comm 1]

/-- A round takes its looks one after the other, up to the first that fails, and no time goes by. -/
theorem sweep_run (names : List String) (m : Moment) :
    ∃ taken, (sweep target names).run.run (watching seen) m =
        (.ok (swept (looksFrom seen target m.round m.looks names)), { m with looks := taken }) ∧
      (failure? (looksFrom seen target m.round m.looks names) = none →
        taken = m.looks + names.length) := by
  induction names generalizing m with
  | nil => exact ⟨_, rfl, fun _ => rfl⟩
  | cons name names ih =>
    rw [looksFrom_cons]
    unfold sweep
    rw [run_act_bind]
    dsimp only [watching]
    cases here : seen m.round m.looks target name with
    | error e => exact ⟨_, rfl, nofun⟩
    | ok b =>
      obtain ⟨taken, others, all⟩ := ih { m with looks := m.looks + 1 }
      refine ⟨taken, ?_, fun read => ?_⟩
      · rw [swept_cons rfl]
        dsimp only at others ⊢
        rw [run_bind, others]
        cases swept (looksFrom seen target m.round (m.looks + 1) names) <;> rfl
      · rw [failure?_cons rfl] at read
        rw [all read, List.length_cons, Nat.add_assoc, Nat.add_comm 1]

variable {o : Options} {names : List String} {m m' : Moment}

/-- A round that ends the wait whatever the time is. -/
theorem wait_run {swept : Except String (List String)} {result : Except String Unit}
    (sweeps : (sweep o.target names).run.run (watching seen) m = (.ok swept, m'))
    (settled : swept = .ok [] ∧ result = .ok () ∨
      ∃ reason, swept = .error reason ∧ result = .error reason)
    (deadline : Option Duration) (patience : Nat) :
    (wait o deadline names (patience + 1)).run.run (watching seen) m = (.ok result, m') := by
  unfold wait
  rw [run_bind, sweeps]
  obtain ⟨rfl, rfl⟩ | ⟨reason, rfl, rfl⟩ := settled <;> rfl

/-- A round after which some bindings are not bound. -/
theorem wait_run_of_unbound {name : String} {others : List String}
    (sweeps : (sweep o.target names).run.run (watching seen) m = (.ok (.ok (name :: others)), m'))
    (deadline : Option Duration) (patience : Nat) :
    (wait o deadline names (patience + 1)).run.run (watching seen) m =
      if deadline.any fun deadline => deadline.nanos ≤ m'.time.nanos then
        (.ok (.error ("timed out waiting for bindings to be bound: " ++
          String.intercalate ", " (name :: others))), m')
      else
        (wait o deadline names patience).run.run (watching seen)
          ⟨m'.round + 1, 0, m'.time + o.pollInterval⟩ := by
  generalize rest_eq : wait o deadline names patience = rest
  unfold wait
  rw [run_bind, sweeps, rest_eq]
  refine (run_act_bind ..).trans ?_
  by_cases due : (deadline.any fun deadline => deadline.nanos ≤ m'.time.nanos) = true
  · rw [if_pos due]
    exact congrArg (fun c : Client _ => c.run.run (watching seen) m') (if_pos due)
  · rw [if_neg due]
    refine (congrArg (fun c : Client _ => c.run.run (watching seen) m') (if_neg due)).trans ?_
    exact run_act_bind ..

end Sweeps

section Rounds

/-- The clock goes as far as the end of the timeout. Its seconds are below 2^63. -/
def Representable (start timeout : Duration) : Prop :=
  start.nanos + timeout.nanos < 0x8000000000000000 * 1000000000

instance (start timeout : Duration) : Decidable (Representable start timeout) :=
  inferInstanceAs (Decidable (_ < _))

theorem deadline?_eq_some {start timeout : Duration} (fits : Representable start timeout) :
    deadline? start timeout = some ⟨start.nanos + timeout.nanos⟩ :=
  if_pos (Nat.div_lt_of_lt_mul (Nat.mul_comm .. ▸ fits))

theorem deadline?_eq_none {start timeout : Duration} (beyond : ¬ Representable start timeout) :
    deadline? start timeout = none :=
  if_neg fun fits => beyond ((Nat.div_lt_iff_lt_mul (by decide)).1 fits)

variable (seen : Sight) (o : Options) (names : List String) (start : Duration)

/-- One look at each binding, in order. -/
def looksIn (round : Nat) : List Look := looksFrom seen o.target round 0 names

/-- When the round begins. -/
def timeOf (round : Nat) : Duration := ⟨start.nanos + round * o.pollInterval.nanos⟩

/-- All bindings can be read, and some are not bound. -/
def Pending (round : Nat) : Prop :=
  failure? (looksIn seen o names round) = none ∧ unbound (looksIn seen o names round) ≠ []

/-- There is a deadline, and the sleeps before the round have taken as long as the timeout. -/
def TimeUp (round : Nat) : Prop :=
  Representable start o.timeout ∧ o.timeout.nanos ≤ round * o.pollInterval.nanos

/-- The wait goes on after the round. -/
def Open (round : Nat) : Prop := Pending seen o names round ∧ ¬ TimeUp o start round

/-- The round decides how the wait ends. -/
inductive Decides (round : Nat) : Except String Unit → Prop where
  | bound (all : ∀ l ∈ looksIn seen o names round, l.isBound) : Decides round (.ok ())
  | failed {e : StoreError} (first : failure? (looksIn seen o names round) = some e) :
      Decides round (.error e.message)
  | late (pending : Pending seen o names round) (late : TimeUp o start round) :
      Decides round (.error ("timed out waiting for bindings to be bound: " ++
        String.intercalate ", " (unbound (looksIn seen o names round))))

/-- How the wait ends and when, if no more than so many rounds are made. -/
def waited (patience : Nat) : Except Halt (Except String Unit) × Moment :=
  (waitUntilBound o names patience).run.run (watching seen) ⟨0, 0, start⟩

/-- The wait ends in this round, for whoever has the patience for it. -/
structure EndsIn (round : Nat) (result : Except String Unit) : Prop where
  unfinished : ∀ patience ≤ round, (waited seen o names start patience).1 = .error .unfinished
  ended : ∀ patience > round, ∃ taken,
    waited seen o names start patience = (.ok result, ⟨round, taken, timeOf o start round⟩) ∧
      (failure? (looksIn seen o names round) = none → taken = names.length)

/-- The wait from a round on. -/
def waitFrom (round patience : Nat) : Except Halt (Except String Unit) × Moment :=
  (wait o (deadline? start o.timeout) names patience).run.run (watching seen)
    ⟨round, 0, timeOf o start round⟩

section Steps

variable {seen o names start} {round : Nat} {result : Except String Unit}

/-- A round that decides does not leave the wait open. -/
theorem Decides.not_open (decides : Decides seen o names start round result) :
    ¬ Open seen o names start round := by
  rintro ⟨⟨read, some⟩, early⟩
  cases decides with
  | bound all => exact some (unbound_eq_nil_iff.2 all)
  | failed first =>
    rw [read] at first
    cases first
  | late pending late => exact early late

theorem Decides.unique {other : Except String Unit}
    (first : Decides seen o names start round result)
    (second : Decides seen o names start round other) : result = other := by
  cases first with
  | bound all =>
    cases second with
    | bound _ => rfl
    | failed fails => cases (failure?_eq_none_of_bound all).symm.trans fails
    | late pending _ => exact absurd (unbound_eq_nil_iff.2 all) pending.2
  | failed fails =>
    cases second with
    | bound all => cases (failure?_eq_none_of_bound all).symm.trans fails
    | failed fails' =>
      cases fails.symm.trans fails'
      rfl
    | late pending _ => cases pending.1.symm.trans fails
  | late pending _ =>
    cases second with
    | bound all => exact absurd (unbound_eq_nil_iff.2 all) pending.2
    | failed fails => cases pending.1.symm.trans fails
    | late _ _ => rfl

theorem timeOf_zero : timeOf o start 0 = start := by
  rw [timeOf, Nat.zero_mul, Nat.add_zero]

theorem timeOf_succ (round : Nat) :
    timeOf o start round + o.pollInterval = timeOf o start (round + 1) := by
  change Duration.mk (start.nanos + round * o.pollInterval.nanos + o.pollInterval.nanos) =
    ⟨start.nanos + (round + 1) * o.pollInterval.nanos⟩
  rw [Nat.succ_mul, Nat.add_assoc]

theorem waited_eq (patience : Nat) :
    waited seen o names start patience = waitFrom seen o names start 0 patience := by
  rw [waited, waitUntilBound, run_act_bind, waitFrom, timeOf_zero]
  rfl

/-- The deadline is over once the sleeps have taken as long as the timeout. -/
theorem due_iff : ((deadline? start o.timeout).any fun deadline =>
    deadline.nanos ≤ (timeOf o start round).nanos) = true ↔ TimeUp o start round := by
  unfold TimeUp
  by_cases fits : Representable start o.timeout
  · simp [deadline?_eq_some fits, fits, timeOf]
  · simp [deadline?_eq_none fits, fits]

/-- The first round decides, or the wait goes on with the next one. -/
theorem waitFrom_succ (round patience : Nat) :
    (∃ result taken, Decides seen o names start round result ∧
      waitFrom seen o names start round (patience + 1) =
        (.ok result, ⟨round, taken, timeOf o start round⟩) ∧
      (failure? (looksIn seen o names round) = none → taken = names.length)) ∨
    Open seen o names start round ∧ waitFrom seen o names start round (patience + 1) =
      waitFrom seen o names start (round + 1) patience := by
  obtain ⟨taken, sweeps, count⟩ := @sweep_run seen o.target names ⟨round, 0, timeOf o start round⟩
  change _ = (Except.ok (swept (looksIn seen o names round)), Moment.mk round taken _) at sweeps
  change failure? (looksIn seen o names round) = none → taken = 0 + names.length at count
  rw [Nat.zero_add] at count
  cases fails : failure? (looksIn seen o names round) with
  | some e =>
    rw [swept, fails] at sweeps
    exact .inl ⟨_, taken, .failed fails, wait_run sweeps (.inr ⟨_, rfl, rfl⟩) _ patience, nofun⟩
  | none =>
    rw [swept, fails] at sweeps
    cases rest : unbound (looksIn seen o names round) with
    | nil =>
      dsimp only at sweeps
      rw [rest] at sweeps
      exact .inl ⟨_, taken, .bound (unbound_eq_nil_iff.1 rest),
        wait_run sweeps (.inl ⟨rfl, rfl⟩) _ patience, fun _ => count fails⟩
    | cons name others =>
      have pending : Pending seen o names round := ⟨fails, rest ▸ List.cons_ne_nil name others⟩
      dsimp only at sweeps
      rw [rest] at sweeps
      have next := wait_run_of_unbound sweeps (deadline? start o.timeout) patience
      by_cases late : TimeUp o start round
      · rw [if_pos (due_iff.2 late), ← rest] at next
        exact .inl ⟨_, taken, .late pending late, next, fun _ => count fails⟩
      · rw [if_neg (mt due_iff.1 late), timeOf_succ] at next
        exact .inr ⟨⟨pending, late⟩, next⟩

end Steps

/-- The first round that decides ends the wait, or all rounds leave it open. -/
theorem waitFrom_run (round patience : Nat) :
    (∃ last result taken, round ≤ last ∧ last < round + patience ∧
      (∀ i, round ≤ i → i < last → Open seen o names start i) ∧
      Decides seen o names start last result ∧
      waitFrom seen o names start round patience =
        (.ok result, ⟨last, taken, timeOf o start last⟩) ∧
      (failure? (looksIn seen o names last) = none → taken = names.length)) ∨
    (∀ i, round ≤ i → i < round + patience → Open seen o names start i) ∧
      (waitFrom seen o names start round patience).1 = .error .unfinished := by
  induction patience generalizing round with
  | zero => exact .inr ⟨fun i from_ below => by omega, rfl⟩
  | succ patience ih =>
    obtain ⟨result, taken, decides, ends, count⟩ | ⟨here, next⟩ :=
      @waitFrom_succ seen o names start round patience
    · exact .inl ⟨round, result, taken, Nat.le_refl _, by omega, fun i from_ below => by omega,
        decides, ends, count⟩
    -- This round leaves the wait open, and what holds of the later ones holds by induction.
    have from_here : ∀ {last}, (∀ i, round + 1 ≤ i → i < last → Open seen o names start i) →
        ∀ i, round ≤ i → i < last → Open seen o names start i := by
      intro last later i from_ below
      rcases Nat.eq_or_lt_of_le from_ with rfl | after
      · exact here
      · exact later i after below
    rw [next, ← Nat.add_assoc, Nat.add_right_comm]
    obtain ⟨last, result, taken, after, below, later, ended⟩ | ⟨later, unfinished⟩ := ih (round + 1)
    · exact .inl ⟨last, result, taken, by omega, below, from_here later, ended⟩
    · exact .inr ⟨from_here later, unfinished⟩

variable {seen o names start}

/-- The wait ends in the first round that decides. -/
theorem endsIn_iff {round : Nat} {result : Except String Unit} :
    EndsIn seen o names start round result ↔
      Decides seen o names start round result ∧ ∀ i < round, Open seen o names start i := by
  constructor
  · intro ends
    obtain ⟨taken, ended, -⟩ := ends.ended (round + 1) (Nat.lt_succ_self round)
    rw [waited_eq] at ended
    obtain ⟨last, _, _, -, -, before, decides, same, -⟩ | ⟨-, unfinished⟩ :=
      waitFrom_run seen o names start 0 (round + 1)
    · cases ended.symm.trans same
      exact ⟨decides, fun i below => before i (Nat.zero_le i) below⟩
    · rw [ended] at unfinished
      cases unfinished
  · rintro ⟨decides, before⟩
    constructor <;> intro patience bound <;> rw [waited_eq]
    · obtain ⟨last, _, _, -, below, -, earlier, -, -⟩ | ⟨-, unfinished⟩ :=
        waitFrom_run seen o names start 0 patience
      · exact absurd (before last (by omega)) earlier.not_open
      · exact unfinished
    · obtain ⟨last, _, taken, -, -, others, decides', same, count⟩ | ⟨all, -⟩ :=
        waitFrom_run seen o names start 0 patience
      · rcases Nat.lt_trichotomy last round with less | rfl | more
        · exact absurd (before last less) decides'.not_open
        · cases decides.unique decides'
          exact ⟨taken, same, count⟩
        · exact absurd (others round (Nat.zero_le _) more) decides.not_open
      · exact absurd (all round (Nat.zero_le _) (by omega)) decides.not_open

/-- With a deadline, and some time between the rounds, one of them decides. -/
theorem exists_endsIn (spaced : 0 < o.pollInterval.nanos)
    (limited : Representable start o.timeout) :
    ∃ round result, EndsIn seen o names start round result := by
  obtain ⟨last, result, _, -, -, before, decides, -, -⟩ | ⟨all, -⟩ :=
    waitFrom_run seen o names start 0 (o.timeout.nanos + 1)
  · exact ⟨last, result, endsIn_iff.2 ⟨decides, fun i below => before i (Nat.zero_le i) below⟩⟩
  · -- Each round is a nanosecond after the one before, or later.
    have late : TimeUp o start o.timeout.nanos := ⟨limited, Nat.le_mul_of_pos_right _ spaced⟩
    exact absurd late (all o.timeout.nanos (Nat.zero_le _) (by omega)).2

/-- When and how a wait for bindings ends. -/
structure Exact (seen : Sight) (o : Options) (names : List String) (start : Duration) : Prop where
  /-- It ends in the first round in which all bindings are bound, one cannot be read, or the time is
  up. The deadline does not count before the looks of its round are taken. -/
  ends (round : Nat) (result : Except String Unit) : EndsIn seen o names start round result ↔
    Decides seen o names start round result ∧ ∀ i < round, Open seen o names start i
  /-- It is not given up before the timeout, and less than an interval after it. -/
  in_time (round : Nat) (result : Except String Unit) :
    EndsIn seen o names start round result → Pending seen o names round →
      o.timeout.nanos ≤ round * o.pollInterval.nanos ∧
        round * o.pollInterval.nanos < o.timeout.nanos + o.pollInterval.nanos
  /-- With a deadline it ends, whatever is seen. -/
  limited : Representable start o.timeout →
    ∃ round result, EndsIn seen o names start round result
  /-- Without a deadline it goes on while bindings are pending. -/
  unlimited : ¬ Representable start o.timeout →
    (∀ round result, EndsIn seen o names start round result → ¬ Pending seen o names round) ∧
    ((∀ round, Pending seen o names round) →
      ∀ patience, (waited seen o names start patience).1 = .error .unfinished)
  /-- Without bindings it ends in the first round. -/
  at_once : names = [] → EndsIn seen o names start 0 (.ok ())

/-- However the bindings change, a wait whose rounds are some time apart ends when and how it should
do. -/
theorem wait_exact (seen : Sight) (o : Options) (names : List String) (start : Duration)
    (spaced : 0 < o.pollInterval.nanos) : Exact seen o names start where
  ends _ _ := endsIn_iff
  in_time round result ends pending := by
    obtain ⟨decides, before⟩ := endsIn_iff.1 ends
    have late : TimeUp o start round :=
      Classical.byContradiction fun early => decides.not_open ⟨pending, early⟩
    refine ⟨late.2, ?_⟩
    cases round with
    | zero => omega
    | succ round =>
      have early : ¬ o.timeout.nanos ≤ round * o.pollInterval.nanos :=
        fun past => (before round (Nat.lt_succ_self round)).2 ⟨late.1, past⟩
      rw [Nat.succ_mul]
      omega
  limited := exists_endsIn spaced
  unlimited beyond := by
    have never (round : Nat) : ¬ TimeUp o start round := fun late => beyond late.1
    refine ⟨fun round result ends pending => ?_, fun pending patience => ?_⟩
    · exact (endsIn_iff.1 ends).1.not_open ⟨pending, never round⟩
    · rw [waited_eq]
      obtain ⟨last, _, _, -, -, -, decides, -, -⟩ | ⟨-, unfinished⟩ :=
        waitFrom_run seen o names start 0 patience
      · exact absurd ⟨pending last, never last⟩ decides.not_open
      · exact unfinished
  at_once empty := by
    subst empty
    exact endsIn_iff.2 ⟨.bound nofun, nofun⟩

end Rounds

namespace Sample

/-- One of two bindings is bound in each of the first rounds, and the other one is not. From the
third round on both are. -/
def flickering : Sight := fun round _ _ name =>
  let bound := round ≥ 2 ∨ (name = "dns" ↔ round = 1)
  .ok ⟨.named name, ⟨"root:providers", name⟩, [], if bound then .bound else .pending⟩

/-- None is ever bound. -/
def stuck : Sight := fun _ _ _ name =>
  .ok ⟨.named name, ⟨"root:providers", name⟩, [], .pending⟩

/-- The time is up when the third round begins, if the clock goes so far. -/
def patient : Options := ⟨"root:platform", .root, .ofSeconds 6, .ofSeconds 3⟩

/-- A clock that goes just not as far as the end of the timeout. -/
def old : Duration := .ofSeconds (0x8000000000000000 - 6)

theorem stuck_pending (o : Options) (round : Nat) : Pending stuck o ["dns", "mail"] round :=
  ⟨rfl, List.cons_ne_nil _ _⟩

theorem early {round : Nat} (before : round < 2) : ¬ TimeUp patient .zero round := fun up => by
  have past : 6000000000 ≤ round * 3000000000 := up.2
  omega

end Sample

open Sample

/-- When the time is up, it is well if the bindings are bound then, and an error if they are not.
There is no deadline behind the end of the clock. -/
theorem wait_exact_sample :
    0 < patient.pollInterval.nanos ∧ TimeUp patient .zero 2 ∧
      EndsIn flickering patient ["dns", "mail"] .zero 2 (.ok ()) ∧
      EndsIn stuck patient ["dns", "mail"] .zero 2
        (.error "timed out waiting for bindings to be bound: dns, mail") ∧
      ∀ patience, (waited stuck patient ["dns", "mail"] old patience).1 = .error .unfinished := by
  have spaced : 0 < patient.pollInterval.nanos := by decide
  have late : TimeUp patient .zero 2 := ⟨by decide, by decide⟩
  refine ⟨spaced, late, ?_, ?_, ?_⟩
  · refine ((wait_exact _ _ _ _ spaced).ends 2 (.ok ())).2 ⟨.bound (by decide), ?_⟩
    intro round before
    obtain rfl | rfl : round = 0 ∨ round = 1 := by omega
    · exact ⟨⟨by decide, by decide⟩, early before⟩
    · exact ⟨⟨by decide, by decide⟩, early before⟩
  · refine ((wait_exact _ _ _ _ spaced).ends 2 _).2 ⟨.late (stuck_pending patient 2) late, ?_⟩
    exact fun round before => ⟨stuck_pending patient round, early before⟩
  · have beyond : ¬ Representable old patient.timeout := by decide
    exact ((wait_exact _ _ _ _ spaced).unlimited beyond).2 (stuck_pending patient)

end Binding
end ApiCatalog
