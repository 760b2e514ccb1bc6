import Andrix.Deployment.Activation
import Andrix.Deployment.Fitting
import Andrix.Deployment.Runs
import Andrix.Deployment.SingleUse

/-! No crossing is replayed. A step stores its ticket with the crossing's entry
before the crossing is issued, so an entry is issued once or never. Whether a
later step may issue the same crossing again depends on what the ledger says of
the current boot, which is why the invariant of a stored ticket speaks of time:
no entry of another boot can pass for one of this boot, a request is repeated in
one boot only after its time limit, and a boot that was seen to begin holds none
of the ticket's entries yet. -/
namespace Andrix.Deployment
open Andrix.Lib List Option

/-! ## How a step enters a state -/

/-- What a step does to the state and the ledger. -/
inductive Entered (c : Context) (s : Step) : Prop
  | stayed : s.ticket.state = c.ticket.state → s.ticket.ledger = c.ticket.ledger → Entered c s
  | moved : Moves c (starting c) (isNewBoot c) s.ticket.state →
    s.ticket.ledger = c.ticket.ledger → Entered c s
  | bound : c.ticket.state = .sessionIntent → s.ticket.state = .sessionBound →
    s.ticket.ledger = c.ticket.ledger → Entered c s
  | finished : s.ticket.state = .applied ∨ s.ticket.state = .healthWindow ∨
      s.ticket.state.terminal = true → s.ticket.ledger = c.ticket.ledger → Entered c s
  | crossed {e : Entry} {r : Reference} {k : Cause} :
    Crosses c (starting c) s.ticket.state e r k → s.ticket.ledger = c.ticket.ledger ++ [e] →
    Entered c s

variable {c : Context} {s : Step}

theorem Turn.entered {d : Draft}
    (turn : Turn c (starting c) (isNewBoot c) d) (built : s.ticket.toBuilder = d.builder) :
    Entered c s := by
  cases turn with
  | stays _ _ _ made | idles _ made | restarts _ _ _ _ _ made | observes _ _ _ _ made
  | windowWaits _ _ _ _ _ made =>
    rw [made] at built
    exact .stayed (by rw [built]; rfl) (by rw [built]; rfl)
  | moves moves _ made =>
    rw [made] at built
    refine .moved ?_ (by rw [built]; rfl)
    rw [built]
    exact moves
  | binds state _ _ _ made =>
    rw [made] at built
    exact .bound state (by rw [built]) (by rw [built]; rfl)
  | @crosses state e r k _ crosses made =>
    rw [made] at built
    have enters : Crosses c (starting c) s.ticket.state e r k := by
      rw [built]
      exact crosses
    exact .crossed enters (by rw [built]; rfl)
  | closes closes _ made | windowCloses _ _ closes _ made =>
    rw [made] at built
    exact .finished (.inr (.inr (by rw [built]; exact closes.terminal))) (by rw [built]; rfl)
  | applies _ _ _ _ _ made =>
    rw [made] at built
    exact .finished (.inl (by rw [built])) (by rw [built]; rfl)
  | opensWindow _ _ _ made =>
    rw [made] at built
    exact .finished (.inr (.inl (by rw [built]))) (by rw [built]; rfl)

theorem step_entered (ran : step c = .ok s) : Entered c s := by
  cases step_inv ran with
  | same _ same => exact .stayed (by rw [same]) (by rw [same])
  | held _ _ _ built => exact .stayed (by rw [built]; rfl) (by rw [built]; rfl)
  | turned _ _ _ _ turn _ taken => exact turn.entered taken.built

theorem step_shaped (ran : step c = .ok s)
    (shaped : Shaped c.ticket.state c.ticket.ledger) : Shaped s.ticket.state s.ticket.ledger := by
  cases step_inv ran with
  | same _ same =>
    rw [same]
    exact shaped
  | held _ _ _ built =>
    rw [built]
    exact shaped
  | turned _ _ _ _ turn _ taken =>
    rw [taken.built]
    exact turn.shaped shaped

/-- The boot a step leaves on its ticket: the clock's, unless no boot was ever
observed or the step changes nothing. -/
theorem step_boot (ran : step c = .ok s) : s.ticket = c.ticket ∨
    (c.now = none ∧ s.ticket.boot = c.ticket.boot) ∨
    ∃ now, c.now = some now ∧ (s.ticket.boot = now.boot ∨ s.ticket.boot = noId) := by
  have seen (known : unobserved c = false) (boot : s.ticket.boot = seenBoot c) :
      (c.now = none ∧ s.ticket.boot = c.ticket.boot) ∨
      ∃ now, c.now = some now ∧ (s.ticket.boot = now.boot ∨ s.ticket.boot = noId) := by
    unfold seenBoot at boot
    unfold unobserved at known
    cases clock : c.now with
    | none =>
      rw [clock] at boot
      exact .inl ⟨rfl, boot⟩
    | some now =>
      refine .inr ⟨now, rfl, ?_⟩
      simp only [clock] at boot
      split at boot
      · exact .inl boot
      rename_i unread
      rw [boot]
      by_cases same : now.boot = c.ticket.boot
      · exact .inl same.symm
      · exact .inr (by simpa [clock, same, unread] using known)
  cases step_inv ran with
  | same _ same => exact .inl same
  | held _ known _ built => exact .inr (seen known (by rw [built]; rfl))
  | turned _ known _ _ turn _ taken =>
    exact .inr (seen known (by rw [taken.built, ← turn.carries.boots.1]; rfl))

/-! ## Time -/

def Timeline.running (time : Timeline) (e : Entry) : Prop := time.boots.head? = some e.boot

/-- The states before a reboot can have been requested. -/
def State.unrequested : State → Bool
  | .planned | .authorized | .signing | .signFailed | .signed | .published | .sessionIntent
  | .noSession | .sessionBound | .written | .commitIntent => true
  | _ => false

/-- Two reboot requests of one boot are at least the plan's limit apart. -/
def Apart (p : Plan) (a b : Entry) : Prop := a.crossing = .reboot → b.crossing = .reboot →
  a.boot = b.boot → p.rebootTimeLimitMillis.toInt ≤ b.elapsed.toInt - a.elapsed.toInt

/-- What a stored ticket's ledger says of time. -/
structure Timely (time : Timeline) (p : Plan) (t : Ticket) : Prop where
  shaped : Shaped t.state t.ledger
  unrequested : t.state.unrequested = true → countOf .reboot t.ledger = 0
  seen : ∀ e ∈ t.ledger, e.boot = noId ∨ e.boot ∈ time.boots
  passed : ∀ e ∈ t.ledger, time.running e → e.elapsed ≤ time.elapsed
  own : ∀ e ∈ t.ledger, time.running e → t.boot = e.boot ∨ t.boot = noId
  apart : t.ledger.Pairwise (Apart p)
  waited : t.state = .ready → ∀ e ∈ t.ledger, e.crossing = .reboot → time.running e →
    p.rebootTimeLimitMillis.toInt ≤ time.elapsed.toInt - e.elapsed.toInt
  again : t.state = .readyAgain → ∀ e ∈ t.ledger, e.crossing = .reboot → ¬ time.running e
  began : t.state = .bootObserved → ∀ e ∈ t.ledger, ¬ time.running e

variable {time after : Timeline} {now : Clock}

/-- Reading a clock leaves the boot it shows running, at the time it shows. -/
theorem Timeline.read_some
    (read : time.read (some now) = some after) :
    after.boots.head? = some now.boot ∧ after.elapsed = now.elapsed ∧
      ((after.boots = time.boots ∧ time.elapsed ≤ now.elapsed) ∨
        (after.boots = now.boot :: time.boots ∧ now.boot ∉ time.boots)) := by
  simp only [Timeline.read] at read
  split at read
  · rename_i running
    split at read
    · rename_i forward
      cases read
      exact ⟨running, rfl, .inl ⟨rfl, forward⟩⟩
    · cases read
  · split at read
    · cases read
    · rename_i new
      cases read
      exact ⟨rfl, rfl, .inr ⟨rfl, new⟩⟩

variable {t : Ticket} {p : Plan}

/-- Time passes: what a ledger says of it stays true. -/
theorem Timely.at_read (timely : Timely time p t)
    {clock : Option Clock} (read : time.read clock = some after) : Timely after p t := by
  cases clock with
  | none =>
    cases read
    exact timely
  | some now =>
    obtain ⟨head, elapsed, ⟨boots, forward⟩ | ⟨boots, new⟩⟩ := Timeline.read_some read
    · -- The same boot goes on.
      have running (e : Entry) : after.running e ↔ time.running e := by
        rw [Timeline.running, boots, Timeline.running]
      have later : time.elapsed.toInt ≤ after.elapsed.toInt := by
        rw [elapsed]
        exact Int64.le_iff_toInt_le.mp forward
      refine { timely with seen := ?_, passed := ?_, own := ?_, waited := ?_, again := ?_, began := ?_ }
      · rw [boots]
        exact timely.seen
      · intro e among current
        have before := timely.passed e among ((running e).mp current)
        rw [elapsed]
        exact Int64.le_trans before forward
      · intro e among current
        exact timely.own e among ((running e).mp current)
      · intro ready e among reboot current
        have before := timely.waited ready e among reboot ((running e).mp current)
        omega
      · intro state e among reboot current
        exact timely.again state e among reboot ((running e).mp current)
      · intro state e among current
        exact timely.began state e among ((running e).mp current)
    · -- A new boot holds no entry yet.
      have none_ : ∀ e ∈ t.ledger, ¬ after.running e := by
        intro e among current
        have same : now.boot = e.boot := Option.some.inj (head.symm.trans current)
        rcases timely.seen e among with unbooted | seen
        · exact now.boot_ne (same.trans unbooted)
        · exact new (same ▸ seen)
      refine { timely with seen := ?_, passed := ?_, own := ?_, waited := ?_, again := ?_, began := ?_ }
      · intro e among
        rw [boots]
        exact (timely.seen e among).imp_right (mem_cons_of_mem _)
      · intro e among current
        exact absurd current (none_ e among)
      · intro e among current
        exact absurd current (none_ e among)
      · intro _ e among _ current
        exact absurd current (none_ e among)
      · intro _ e among _
        exact none_ e among
      · intro _ e among
        exact none_ e among

/-! ## The step -/

structure Timeline.Shows (time : Timeline) (clock : Option Clock) : Prop where
  named : noId ∉ time.boots
  clock : ∀ now ∈ clock, time.boots.head? = some now.boot ∧ time.elapsed = now.elapsed

section Stepping
variable {time : Timeline} {c : Context} {s : Step} {e : Entry}

theorem Timeline.Shows.boot_eq (shows_ : time.Shows c.now) (clock : c.now = some now) :
    time.running e ↔ e.boot = now.boot := by
  rw [Timeline.running, (shows_.clock now clock).1, Option.some.injEq, eq_comm]

/-- A request that timed out leaves all requests of its boot timed out. -/
theorem Timely.timed_out (timely : Timely time c.plan c.ticket) (shows_ : time.Shows c.now)
    {reboot : Entry} (clock : c.now = some now)
    (last : c.ticket.last .reboot = some reboot) (boot : now.boot = reboot.boot)
    (limit : c.plan.rebootTimeLimitMillis ≤ now.elapsed - reboot.elapsed) :
    ∀ e ∈ c.ticket.ledger, e.crossing = .reboot → time.running e →
      c.plan.rebootTimeLimitMillis.toInt ≤ time.elapsed.toInt - e.elapsed.toInt := by
  intro e among crossing running
  have inside : reboot ∈ c.ticket.ledger := (mem_filter.mp (mem_of_getLast? last)).1
  have elapsed := (shows_.clock now clock).2
  have passed := timely.passed reboot inside ((shows_.boot_eq clock).mpr boot.symm)
  rw [elapsed] at passed ⊢
  have positive : ¬ now.elapsed < 0 :=
    fun negative => reboot.rules.elapsed (Int64.lt_of_le_of_lt passed negative)
  rw [Int64.le_iff_toInt_le, toInt_sub_of_nonneg positive reboot.rules.elapsed] at limit
  have order := Int64.le_iff_toInt_le.mp passed
  rcases related_to_last (timely.apart.filter _) last e (by simp [among, crossing]) with rfl | apart
  · exact limit
  have rebooted : reboot.crossing = .reboot := by
    simpa using (mem_filter.mp (mem_of_getLast? last)).2
  have far := apart crossing rebooted (((shows_.boot_eq clock).mp running).trans boot)
  omega

variable {state : State} {b : Ticket.Builder}

theorem Moves.unrequested {newBoot : Bool}
    (moves : Moves c b newBoot state) (early : state.unrequested = true) :
    c.ticket.state.unrequested = true := by
  have closed : ∀ edge ∈ moveEdges, edge.2.unrequested = true → edge.1.unrequested = true := by decide
  exact closed _ moves.edge early

variable {r : Reference} {k : Cause}

theorem Crosses.unrequested
    (crosses : Crosses c b state e r k) (early : state.unrequested = true) :
    c.ticket.state.unrequested = true ∧ e.crossing ≠ .reboot := by
  have closed : ∀ edge ∈ crossEdges, edge.2.2.unrequested = true →
      edge.1.unrequested = true ∧ edge.2.1 ≠ .reboot := by decide
  exact closed _ crosses.edge early

/-- The entry of a crossing bears the clock's boot and time. -/
theorem Crosses.recorded
    (crosses : Crosses c b state e r k) :
    (∀ now ∈ c.now, e.boot = now.boot ∧ e.elapsed = now.elapsed) ∧ (c.now = none → e.boot = noId) := by
  obtain ⟨crossing, grant, reference, made⟩ : ∃ crossing grant reference,
      entry c crossing grant reference = .ok e := by
    cases crosses with
    | sign _ _ _ made | publish _ _ _ _ made | create _ _ _ _ _ made | write _ _ _ _ made
    | commit _ _ _ _ made | notice _ _ _ _ _ made | reboot _ _ _ _ _ _ _ made
    | abandon _ _ _ made => exact ⟨_, _, _, made⟩
  have recorded := entry_inv made
  exact ⟨fun now clock => ⟨(recorded.clock now clock).1, (recorded.clock now clock).2.2.1⟩,
    recorded.unclocked⟩

theorem Timely.step_own (timely : Timely time c.plan c.ticket) (shows_ : time.Shows c.now)
    (ran : step c = .ok s) : ∀ e ∈ c.ticket.ledger, time.running e →
      s.ticket.boot = e.boot ∨ s.ticket.boot = noId := by
  intro e among running
  rcases step_boot ran with same | ⟨_, same⟩ | ⟨now, clock, boot⟩
  · rw [same]
    exact timely.own e among running
  · rw [same]
    exact timely.own e among running
  · rw [(shows_.boot_eq clock).mp running]
    exact boot

theorem Timely.no_reboot (timely : Timely time c.plan t)
    (early : t.state.unrequested = true) : ∀ e ∈ t.ledger, e.crossing ≠ .reboot := by
  intro e among reboot
  have none_ := timely.unrequested early
  simp only [countOf, countP_eq_zero, decide_eq_true_eq] at none_
  exact none_ e among reboot

/-- A ticket with the ledger of another says the same of time, when it suits the
ledger and enters no waiting state too early. -/
theorem Timely.kept {t u : Ticket} (timely : Timely time p t) (ledger : u.ledger = t.ledger)
    (own : ∀ e ∈ t.ledger, time.running e → u.boot = e.boot ∨ u.boot = noId)
    (shaped : Shaped u.state u.ledger)
    (unrequested : u.state.unrequested = true → t.state.unrequested = true)
    (waited : u.state = .ready → ∀ e ∈ t.ledger, e.crossing = .reboot → time.running e →
      p.rebootTimeLimitMillis.toInt ≤ time.elapsed.toInt - e.elapsed.toInt)
    (again : u.state = .readyAgain → ∀ e ∈ t.ledger, e.crossing = .reboot → ¬ time.running e)
    (began : u.state = .bootObserved → ∀ e ∈ t.ledger, ¬ time.running e) : Timely time p u := by
  refine ⟨shaped, ?_, ?_, ?_, ?_, ?_, ?_, ?_, ?_⟩ <;> rw [ledger]
  · exact fun early => timely.unrequested (unrequested early)
  · exact timely.seen
  · exact timely.passed
  · exact own
  · exact timely.apart
  · exact waited
  · exact again
  · exact began

theorem Timely.stayed {t u : Ticket} (timely : Timely time p t)
    (state : u.state = t.state) (ledger : u.ledger = t.ledger)
    (own : ∀ e ∈ t.ledger, time.running e → u.boot = e.boot ∨ u.boot = noId) : Timely time p u := by
  have shaped : Shaped u.state u.ledger := by
    rw [state, ledger]
    exact timely.shaped
  apply timely.kept ledger own shaped <;> rw [state]
  · exact id
  · exact timely.waited
  · exact timely.again
  · exact timely.began

/-- A state change without an entry keeps what the ledger says of time. -/
theorem Timely.moved (timely : Timely time c.plan c.ticket) (shows_ : time.Shows c.now)
    (ran : step c = .ok s) (moves : Moves c (starting c) (isNewBoot c) s.ticket.state)
    (ledger : s.ticket.ledger = c.ticket.ledger) : Timely time c.plan s.ticket := by
  have kept := timely.kept ledger (timely.step_own shows_ ran) (step_shaped ran timely.shaped)
    moves.unrequested
  generalize s.ticket.state = entered at moves kept
  cases moves with
  | bootObserved newBoot =>
    refine kept (by simp) (by simp) fun _ e among running => ?_
    -- The ticket's boot was another, so none of its entries is of this one.
    simp only [isNewBoot, Bool.and_eq_true, decide_eq_true_eq, ne_eq] at newBoot
    obtain ⟨⟨_, booted⟩, another⟩ := newBoot
    cases clock : c.now with
    | none => simp [clock] at another
    | some now =>
      have other : ¬ now.boot = c.ticket.boot := by simpa [clock] using another
      rcases timely.own e among running with same | unbooted
      · exact other (((shows_.boot_eq clock).mp running).symm.trans same.symm)
      · exact booted unbooted
  | ready commitIntent =>
    refine kept (fun _ e among reboot => ?_) (by simp) (by simp)
    have none_ := timely.no_reboot (by rw [commitIntent]; rfl)
    exact absurd reboot (none_ e among)
  | readyAfter _ clock last boot limit =>
    exact kept (fun _ => timely.timed_out shows_ clock last boot limit) (by simp) (by simp)
  | readyAgain bootObserved =>
    exact kept (by simp) (fun _ e among _ => timely.began bootObserved e among) (by simp)
  | authorized | signing | signFailed | signed | published | noSession | written | lost
  | failedNative | abandoned | provisional => exact kept (by simp) (by simp) (by simp)

/-- A reboot is requested again only in another boot or after the time limit. -/
theorem Timely.reboots_apart (timely : Timely time c.plan c.ticket) (shows_ : time.Shows c.now)
    (crosses : Crosses c (starting c) state e r k) :
    ∀ d ∈ c.ticket.ledger, Apart c.plan d e := by
  intro d among earlier again boot
  have edge := crosses.edge
  have ready : c.ticket.state = .ready ∨ c.ticket.state = .readyAgain := by
    have only : ∀ edge ∈ crossEdges, edge.2.1 = .reboot → edge.1 = .ready ∨ edge.1 = .readyAgain := by
      decide
    exact only _ edge again
  cases clock : c.now with
  | none =>
    -- A reboot enters the device, so its entry has a boot.
    have unbooted := e.rules.bootless (crosses.recorded.2 clock)
    simp [again, Crossing.device] at unbooted
  | some now =>
    obtain ⟨here, at_⟩ := crosses.recorded.1 now clock
    have running : time.running d := (shows_.boot_eq clock).mpr (boot.trans here)
    rw [at_, ← (shows_.clock now clock).2]
    rcases ready with ready | readyAgain
    · exact timely.waited ready d among earlier running
    · exact absurd running (timely.again readyAgain d among earlier)

theorem Timely.crossed (timely : Timely time c.plan c.ticket) (shows_ : time.Shows c.now)
    (ran : step c = .ok s)
    (crosses : Crosses c (starting c) s.ticket.state e r k)
    (ledger : s.ticket.ledger = c.ticket.ledger ++ [e]) : Timely time c.plan s.ticket := by
  have among {d : Entry} : d ∈ s.ticket.ledger ↔ d ∈ c.ticket.ledger ∨ d = e := by
    rw [ledger, mem_append, mem_singleton]
  -- The new entry is of the running boot, or of none.
  have clocked : time.running e → ∃ now, c.now = some now := by
    intro running
    cases clock : c.now with
    | some now => exact ⟨now, rfl⟩
    | none =>
      rw [Timeline.running, crosses.recorded.2 clock] at running
      exact absurd (mem_of_head? running) shows_.named
  have waiting : ∀ edge ∈ crossEdges, edge.2.2 = .ready ∨ edge.2.2 = .readyAgain →
      edge.1 = edge.2.2 ∧ edge.2.1 ≠ .reboot := by decide
  constructor
  · exact step_shaped ran timely.shaped
  · intro early
    obtain ⟨before, other⟩ := crosses.unrequested early
    rw [ledger, countOf_append_singleton, timely.unrequested before, if_neg other]
  · intro d inside
    rcases among.mp inside with inside | rfl
    · exact timely.seen d inside
    cases clock : c.now with
    | none => exact .inl (crosses.recorded.2 clock)
    | some now =>
      rw [(crosses.recorded.1 now clock).1]
      exact .inr (mem_of_head? (shows_.clock now clock).1)
  · intro d inside running
    rcases among.mp inside with inside | rfl
    · exact timely.passed d inside running
    · obtain ⟨now, clock⟩ := clocked running
      rw [(crosses.recorded.1 now clock).2, (shows_.clock now clock).2]
      exact Int64.le_refl _
  · intro d inside running
    rcases among.mp inside with inside | rfl
    · exact timely.step_own shows_ ran d inside running
    obtain ⟨now, clock⟩ := clocked running
    rw [(crosses.recorded.1 now clock).1]
    rcases step_boot ran with same | ⟨none_, _⟩ | ⟨now', clock', boot⟩
    · rw [same] at ledger
      simp at ledger
    · simp [clock] at none_
    · cases clock.symm.trans clock'
      exact boot
  · rw [ledger, pairwise_append]
    refine ⟨timely.apart, pairwise_singleton _ _, fun d inside x last => ?_⟩
    rw [mem_singleton.mp last]
    exact timely.reboots_apart shows_ crosses d inside
  · intro ready d inside reboot running
    obtain ⟨same, other⟩ := waiting _ crosses.edge (.inl ready)
    rcases among.mp inside with inside | rfl
    · exact timely.waited (same.trans ready) d inside reboot running
    · exact absurd reboot other
  · intro readyAgain d inside reboot
    obtain ⟨same, other⟩ := waiting _ crosses.edge (.inr readyAgain)
    rcases among.mp inside with inside | rfl
    · exact timely.again (same.trans readyAgain) d inside reboot
    · exact absurd reboot other
  · intro bootObserved
    have none_ : ∀ edge ∈ crossEdges, edge.2.2 ≠ .bootObserved := by decide
    exact absurd bootObserved (none_ _ crosses.edge)

theorem Timely.stepped (timely : Timely time c.plan c.ticket) (shows_ : time.Shows c.now)
    (ran : step c = .ok s) : Timely time c.plan s.ticket := by
  have own := timely.step_own shows_ ran
  cases step_entered ran with
  | stayed state ledger => exact timely.stayed state ledger own
  | moved moves ledger => exact timely.moved shows_ ran moves ledger
  | bound state bound ledger =>
    apply timely.kept ledger own (step_shaped ran timely.shaped) <;> rw [bound]
    · intro _
      rw [state]
      rfl
    · nofun
    · nofun
    · nofun
  | finished final ledger =>
    have past : s.ticket.state.unrequested = false ∧ s.ticket.state ≠ .ready ∧
        s.ticket.state ≠ .readyAgain ∧ s.ticket.state ≠ .bootObserved := by
      revert final
      cases s.ticket.state <;> decide
    refine timely.kept ledger own (step_shaped ran timely.shaped) ?_ ?_ ?_ ?_
    · intro early
      simp [past.1] at early
    · exact fun state => absurd state past.2.1
    · exact fun state => absurd state past.2.2.1
    · exact fun state => absurd state past.2.2.2
  | crossed crosses ledger => exact timely.crossed shows_ ran crosses ledger

/-! ## Evidence -/

/-- A read of the plan's publication after one PUBLISH attempt. -/
def readsAttempt (c : Context) (attempt : Text) (o : Observation) : Prop :=
  o.kind = .bundle ∧ o.subject = attempt ∧ o.plan = c.plan.planId

/-- The evidence with which a step issues a crossing that its ledger may hold
already. -/
structure Evidence (c : Context) (e : Entry) : Prop where
  once : e.crossing = .create ∨ e.crossing = .write ∨ e.crossing = .commit →
    ∀ d ∈ c.ticket.ledger, d.crossing ≠ e.crossing
  sign : e.crossing = .sign → ∃ grant ∈ c.authorizations, grant.authorizationId = e.grant ∧
    ∀ d ∈ c.ticket.ledger, d.crossing = .sign → ∀ a ∈ c.authorizations,
      a.authorizationId = d.grant → a.inputs &&& grant.inputs = 0
  publish : e.crossing = .publish → ∀ last ∈ c.ticket.last .publish,
    (∃ o ∈ c.view.facts, readsAttempt c last.reference o ∧ o.classification = .bundleAbsent) ∧
    ∀ o ∈ c.view.facts, readsAttempt c last.reference o →
      o.classification ≠ .bundlePublished ∧ o.classification ≠ .bundleMismatch
  reboot : e.crossing = .reboot → ∀ d ∈ c.ticket.ledger, d.crossing = .reboot →
    d.boot ≠ e.boot ∨ c.plan.rebootTimeLimitMillis.toInt ≤ e.elapsed.toInt - d.elapsed.toInt
  abandon : e.crossing = .abandon → ∀ last ∈ c.ticket.last .abandon,
    ∃ o ∈ c.view.facts, o.kind = .session ∧ o.boot = e.boot ∧
      isExact c.ticket.reference o.reference = true ∧ o.classification.live = true ∧
      (o.boot ≠ last.boot ∨ last.instanceId < o.instanceId)

theorem publication_absent {attempt : Text}
    (absent : c.view.publication attempt c.plan.planId = some .bundleAbsent) :
    (∃ o ∈ c.view.facts, readsAttempt c attempt o ∧ o.classification = .bundleAbsent) ∧
    ∀ o ∈ c.view.facts, readsAttempt c attempt o →
      o.classification ≠ .bundlePublished ∧ o.classification ≠ .bundleMismatch := by
  obtain ⟨o, picked, class_⟩ := map_eq_some_iff.mp absent
  obtain ⟨among, matched⟩ := pick_some picked
  simp only [Bool.and_eq_true, decide_eq_true_eq, and_assoc] at matched
  refine ⟨⟨o, among, matched, class_⟩, fun x inside reads => ?_⟩
  -- Absence ranks lowest, so a read that ranked higher would have been picked.
  have follows : Follows
      (fun o best : Observation => decide
        (List.idxOf best.classification [.bundleAbsent, .bundlePublished, .bundleMismatch] <
          List.idxOf o.classification [.bundleAbsent, .bundlePublished, .bundleMismatch]))
      (fun o => List.idxOf o.classification [.bundleAbsent, .bundlePublished, .bundleMismatch]) := by
    constructor <;> intro x y <;> simp only [decide_eq_true_eq, decide_eq_false_iff_not] <;> omega
  have lowest := pick_greatest follows picked x inside (by
    obtain ⟨kind, subject, plan⟩ := reads
    simp [kind, subject, plan])
  rw [class_] at lowest
  constructor <;> intro other <;> rw [other] at lowest <;> revert lowest <;> decide

theorem Crosses.sign_evidence
    (crosses : Crosses c b state e r k) (signs : e.crossing = .sign)
    (distinct : (c.authorizations.map (·.authorizationId)).Nodup) :
    ∃ grant ∈ c.authorizations, grant.authorizationId = e.grant ∧
      ∀ d ∈ c.ticket.ledger, d.crossing = .sign → ∀ a ∈ c.authorizations,
        a.authorizationId = d.grant → a.inputs &&& grant.inputs = 0 := by
  cases crosses with
  | @sign g rest _ _ _ found made =>
    obtain ⟨among, _, _, within⟩ := signGrants_some found mem_cons_self
    refine ⟨g, among, (entry_inv made).grant.symm, ?_⟩
    intro d member earlier a listed named
    have apart := signGrant_apart member within
    have found : authorization c d.grant = some a := by
      rw [authorization, ← named]
      exact find_key distinct listed
    simpa [signedInputs, earlier, found] using apart
  | publish _ _ _ _ made | create _ _ _ _ _ made | write _ _ _ _ made
  | commit _ _ _ _ made | notice _ _ _ _ _ made | reboot _ _ _ _ _ _ _ made
  | abandon _ _ _ made =>
    rw [(entry_inv made).crossing] at signs
    cases signs

theorem Crosses.publish_evidence
    (crosses : Crosses c b state e r k) (publishes : e.crossing = .publish) :
    ∀ last ∈ c.ticket.last .publish,
      c.view.publication last.reference c.plan.planId = some .bundleAbsent := by
  intro last found
  cases crosses with
  | publish _ _ _ attempts =>
    rcases attempts with none_ | ⟨previous, found', _, absent, _⟩
    · cases none_.symm.trans found
    · cases found'.symm.trans found
      exact absent
  | sign _ _ _ made | create _ _ _ _ _ made | write _ _ _ _ made
  | commit _ _ _ _ made | notice _ _ _ _ _ made | reboot _ _ _ _ _ _ _ made
  | abandon _ _ _ made =>
    rw [(entry_inv made).crossing] at publishes
    cases publishes

/-- A session is abandoned again only where it was seen to live on after the last
abandonment: a boot seen to begin holds none of the ticket's entries. -/
theorem Timely.abandon_evidence (timely : Timely time c.plan c.ticket) (shows_ : time.Shows c.now)
    (crosses : Crosses c (starting c) state e r k)
    (abandons : e.crossing = .abandon) : ∀ last ∈ c.ticket.last .abandon,
      ∃ o ∈ c.view.facts, o.kind = .session ∧ o.boot = e.boot ∧
        isExact c.ticket.reference o.reference = true ∧ o.classification.live = true ∧
        (o.boot ≠ last.boot ∨ last.instanceId < o.instanceId) := by
  intro last found
  have inside : last ∈ c.ticket.ledger := (mem_filter.mp (mem_of_getLast? found)).1
  have recorded := crosses.recorded.1
  cases crosses with
  | @abandon now _ _ why instance_ =>
    have clock := (crossingNow_some (frameworkNow_some instance_).1).1
    have here : c.view.boot = e.boot := by
      rw [(recorded now clock).1, c.sameBoot now clock]
    cases why with
    | session state =>
      have none_ : c.ticket.count .abandon = 0 := by
        have shaped := timely.shaped.excludes .abandon
        rcases state with state | state | state | state | state | state <;>
          exact shaped (by rw [state]; decide)
      rw [last_eq_none.mpr none_] at found
      cases found
    | @atBoot o began session live =>
      obtain ⟨fact, kind, boot, exact_⟩ := exactSession_some session
      refine ⟨o, fact, kind, boot.trans here, exact_, live, .inl fun same => ?_⟩
      refine timely.began began last inside ((shows_.boot_eq clock).mpr ?_)
      rw [← same, boot, c.sameBoot now clock]
    | @again o _ session later_ live =>
      obtain ⟨fact, kind, boot, exact_⟩ := exactSession_some session
      refine ⟨o, fact, kind, boot.trans here, exact_, live, ?_⟩
      simpa [later, mem_def.mp found] using later_
  | sign _ _ _ made | publish _ _ _ _ made | create _ _ _ _ _ made | write _ _ _ _ made
  | commit _ _ _ _ made | notice _ _ _ _ _ made | reboot _ _ _ _ _ _ _ made =>
    rw [(entry_inv made).crossing] at abandons
    cases abandons

theorem Timely.evidence (timely : Timely time c.plan c.ticket) (shows_ : time.Shows c.now)
    (distinct : (c.authorizations.map (·.authorizationId)).Nodup) (ran : step c = .ok s)
    (issued : s.issue = some e) : Evidence c e := by
  obtain ⟨state, r, k, crosses, _⟩ := step_crosses ran issued
  constructor
  · intro once d among same
    obtain ⟨_, admitted⟩ := step_admits ran issued
    have single : e.crossing.bound = 1 := by
      rcases once with crossing | crossing | crossing <;> rw [crossing] <;> rfl
    have bound := admitted.bound
    have counted : 0 < countOf e.crossing c.ticket.ledger := countOf_pos.mpr ⟨d, among, same⟩
    omega
  · exact fun signs => crosses.sign_evidence signs distinct
  · exact fun publishes last found =>
      publication_absent (crosses.publish_evidence publishes last found)
  · intro reboot d among earlier
    by_cases boot : d.boot = e.boot
    · exact .inr (timely.reboots_apart shows_ crosses d among earlier reboot boot)
    · exact .inl boot
  · exact timely.abandon_evidence shows_ crosses

end Stepping

/-! ## Runs -/

def Action.crossing : Action → Option (Ticket × Entry)
  | .cross t e => some (t, e)
  | _ => none

def crossings (trace : List Action) : List (Ticket × Entry) := trace.filterMap Action.crossing

/-- The ledger entry that a crossing issues: its ticket's ID and its place. -/
def entryOf (issued : Ticket × Entry) : Text × Nat := (issued.1.ticketId, issued.1.ledger.length)

theorem crossings_append (a b : List Action) : crossings (a ++ b) = crossings a ++ crossings b :=
  filterMap_append

theorem crossings_quiet {actions : List Action} (quiet : ∀ a ∈ actions, a.Quiet) :
    crossings actions = [] := by
  refine filterMap_eq_nil_iff.mpr fun a among => ?_
  have silent := quiet a among
  cases a with
  | observe | select => rfl
  | update | cross => exact silent.elim

/-- What every run keeps: its tickets speak truly of time, each issued entry is
its own and is in the stored ledger, and its ticket was stored before it. -/
structure Unreplayed (w : World) : Prop where
  sound : w.store.Sound
  named : noId ∉ w.time.boots
  timely : ∀ t ∈ w.store.tickets, ∀ p, w.store.plan t.planId = some p → Timely w.time p t
  distinct : ((crossings w.trace).map entryOf).Nodup
  held : ∀ x ∈ crossings w.trace, ∃ u ∈ w.store.tickets, u.ticketId = x.1.ticketId ∧
    x.1.ledger.length ≤ u.ledger.length
  stored : ∀ before t e after, w.trace = before ++ Action.cross t e :: after →
    t.ledger.getLast? = some e ∧ ∃ old, .update old t ∈ before

section Running
variable {w w' : World} {e : WorldEvent}

theorem Timeline.shows_read {clock : Option Clock} (named : noId ∉ time.boots)
    (read : time.read clock = some after) : after.Shows clock := by
  cases clock with
  | none =>
    cases read
    exact ⟨named, nofun⟩
  | some now =>
    obtain ⟨head, elapsed, ⟨boots, _⟩ | ⟨boots, _⟩⟩ := Timeline.read_some read
    · refine ⟨boots ▸ named, ?_⟩
      intro _ same
      cases same
      exact ⟨head, elapsed⟩
    refine ⟨?_, ?_⟩
    · rw [boots, mem_cons]
      rintro (unnamed | among)
      · exact now.boot_ne unnamed.symm
      · exact named among
    · intro _ same
      cases same
      exact ⟨head, elapsed⟩

/-- The tickets after an event: those before, a new one, one cancelled, or one
that a round stepped. -/
theorem World.Changed.tickets_inv (changed : World.Changed w e w')
    (among : t ∈ w'.store.tickets) : t ∈ w.store.tickets ∨ (t.state = .planned ∧ t.ledger = []) ∨
    (∃ old ∈ w.store.tickets, cancel old = .ok (some t)) ∨
    ∃ c r id context stored s, e.clock = r.clock ∧
      Coordinator.Reads c w.store r id context stored ∧ step context = .ok s ∧ t = s.ticket := by
  cases changed with
  | quiet _ same =>
    rw [same] at among
    exact .inl among
  | created _ state ledger added =>
    rw [added] at among
    rcases mem_append.mp among with inside | last
    · exact .inl inside
    · rw [mem_singleton.mp last]
      exact .inr (.inl ⟨state, ledger⟩)
  | @cancelled old next _ present ran replaced =>
    have id : old.ticketId = next.ticketId := by rw [(cancel_eq_some.mp ran).2.2]
    rw [replaced, mem_replace present id] at among
    rcases among with rfl | ⟨inside, _⟩
    · exact .inr (.inr (.inl ⟨old, present, ran⟩))
    · exact .inl inside
  | @stepped c r id context stored s _ _ clock reads ran _ _ _ replaced =>
    have present := (Store.ticket_some reads.ticket).1
    rw [replaced, mem_replace present (step_identity ran).1.symm] at among
    rcases among with rfl | ⟨inside, _⟩
    · exact .inr (.inr (.inr ⟨c, r, id, context, stored, s, clock, reads, ran, rfl⟩))
    · exact .inl inside

private theorem replaced_ledger {tickets : List Ticket} {old next : Ticket}
    (distinct : (tickets.map (·.ticketId)).Nodup) (present : old ∈ tickets)
    (id : old.ticketId = next.ticketId) (grows : old.ledger.length ≤ next.ledger.length) :
    ∀ t ∈ tickets, ∃ u ∈ replace (·.ticketId) next tickets, u.ticketId = t.ticketId ∧
      t.ledger.length ≤ u.ledger.length := by
  intro t among
  by_cases own : t.ticketId = next.ticketId
  · have same : t = old := inj_on_of_nodup_map distinct among present (own.trans id.symm)
    rw [same]
    exact ⟨next, (mem_replace present id).mpr (.inl rfl), id.symm, grows⟩
  · exact ⟨t, (mem_replace present id).mpr (.inr ⟨among, own⟩), rfl, Nat.le_refl _⟩

theorem World.Changed.ledgers_kept (changed : World.Changed w e w') (sound : w.store.Sound) :
    ∀ t ∈ w.store.tickets, ∃ u ∈ w'.store.tickets, u.ticketId = t.ticketId ∧
      t.ledger.length ≤ u.ledger.length := by
  cases changed with
  | quiet _ same =>
    rw [same]
    exact fun t among => ⟨t, among, rfl, Nat.le_refl _⟩
  | created _ _ _ added =>
    rw [added]
    exact fun t among => ⟨t, mem_append_left _ among, rfl, Nat.le_refl _⟩
  | cancelled _ present ran replaced =>
    rw [replaced]
    have next := (cancel_eq_some.mp ran).2.2
    exact replaced_ledger sound.tickets present (by rw [next]) (by rw [next])
  | stepped _ reads ran _ _ _ replaced =>
    rw [replaced]
    refine replaced_ledger sound.tickets (Store.ticket_some reads.ticket).1
      (step_identity ran).1.symm ?_
    rw [step_ledger ran, length_append]
    exact Nat.le_add_right _ _

/-- What an event issues: nothing, or the last entry of the ticket that its step
has just stored. -/
theorem World.Changed.issues (changed : World.Changed w e w') :
    crossings (e.actions w.store) = [] ∨
    ∃ c r id context stored s entry before after,
      Coordinator.Reads c w.store r id context stored ∧ step context = .ok s ∧
      s.issue = some entry ∧
      e.actions w.store = before ++ Action.update context.ticket s.ticket :: .cross s.ticket entry :: after ∧
      (∀ a ∈ before, a.Quiet) ∧ (∀ a ∈ after, a.Quiet) ∧ s.ticket ∈ w'.store.tickets ∧
      crossings (e.actions w.store) = [(s.ticket, entry)] := by
  cases changed with
  | quiet quiet => exact .inl (crossings_quiet quiet)
  | created none_ =>
    rw [none_]
    exact .inl rfl
  | cancelled only =>
    rw [only]
    exact .inl rfl
  | @stepped c r id context stored s before after _ reads ran split quiet crossed replaced =>
    have written : s.ticket ∈ w'.store.tickets := by
      rw [replaced, mem_replace (Store.ticket_some reads.ticket).1 (step_identity ran).1.symm]
      exact .inl rfl
    cases crossed with
    | nothing =>
      rw [split, crossings_append, crossings_quiet quiet]
      exact .inl rfl
    | @crossing entry rest issue silent =>
      refine .inr ⟨c, r, id, context, stored, s, entry, before, rest, reads, ran, issue, split, quiet,
        silent, written, ?_⟩
      rw [split, crossings_append, crossings_quiet quiet]
      have tail := crossings_quiet silent
      simp only [crossings] at tail ⊢
      simp [filterMap_cons, Action.crossing, tail]

theorem Unreplayed.start (installation : Text) : Unreplayed (World.start installation) where
  sound := Store.sound_empty installation
  named := not_mem_nil
  timely := by simp [World.start]
  distinct := nodup_nil
  held := by simp [World.start, crossings]
  stored := by simp [World.start]

theorem Unreplayed.timely_next (before : Unreplayed w) (happened : w.next e = some w') :
    ∀ t ∈ w'.store.tickets, ∀ p, w'.store.plan t.planId = some p → Timely w'.time p t := by
  obtain ⟨read, _, _⟩ := World.next_inv happened
  have shows_ := Timeline.shows_read before.named read
  -- The plan of a ticket that was stored before is the one it had before.
  have known {t : Ticket} (among : t ∈ w.store.tickets) {p : Plan}
      (found : w'.store.plan t.planId = some p) : Timely w'.time p t := by
    obtain ⟨q, stored, _⟩ := before.sound.planned t among
    cases (World.plan_kept happened stored).symm.trans found
    exact (before.timely t among p stored).at_read read
  intro t among p found
  rcases (World.next_changed happened).tickets_inv among with
    inside | ⟨state, ledger⟩ | ⟨old, inside, cancelled⟩ | ⟨c, r, id, context, stored, s, clock, reads, ran, rfl⟩
  · exact known inside found
  · refine ⟨?_, ?_, ?_, ?_, ?_, ?_, ?_, ?_, ?_⟩ <;> simp [ledger]
    rw [state]
    exact ⟨by simp [State.requires], by simp⟩
  · have next := (cancel_eq_some.mp cancelled).2.2
    have plan : t.planId = old.planId := by rw [next]
    rw [plan] at found
    have timely := known inside found
    refine timely.stayed (by rw [next]) (by rw [next]) ?_
    rw [next]
    exact timely.own
  · have inside := (Store.ticket_some reads.ticket).1
    rw [(step_identity ran).2] at found
    cases (World.plan_kept happened reads.plan).symm.trans found
    refine (known inside found).stepped ?_ ran
    rw [reads.now, ← clock]
    exact shows_

theorem Unreplayed.distinct_next (before : Unreplayed w) (happened : w.next e = some w') :
    ((crossings w'.trace).map entryOf).Nodup := by
  obtain ⟨_, _, trace⟩ := World.next_inv happened
  rw [trace, crossings_append, map_append]
  rcases (World.next_changed happened).issues with
    none_ | ⟨c, r, id, context, stored, s, entry, _, _, reads, ran, issue, _, _, _, _, only⟩
  · rw [none_]
    simpa using before.distinct
  rw [only]
  refine nodup_append.mpr ⟨before.distinct, nodup_singleton _, ?_⟩
  intro key among new single same
  obtain ⟨x, issued, rfl⟩ := mem_map.mp among
  rw [mem_singleton.mp single] at same
  -- An entry issued before is in the stored ledger, which the new one extends.
  obtain ⟨u, inside, named, length⟩ := before.held x issued
  have ids : x.1.ticketId = s.ticket.ticketId := congrArg Prod.fst same
  have places : x.1.ledger.length = s.ticket.ledger.length := congrArg Prod.snd same
  have own : u = context.ticket :=
    inj_on_of_nodup_map before.sound.tickets inside (Store.ticket_some reads.ticket).1
      (named.trans (ids.trans (step_identity ran).1))
  rw [own] at length
  rw [step_ledger ran, issue] at places
  simp at places
  omega

theorem Unreplayed.held_next (before : Unreplayed w) (happened : w.next e = some w') :
    ∀ x ∈ crossings w'.trace, ∃ u ∈ w'.store.tickets, u.ticketId = x.1.ticketId ∧
      x.1.ledger.length ≤ u.ledger.length := by
  obtain ⟨_, _, trace⟩ := World.next_inv happened
  have changed := World.next_changed happened
  intro x issued
  rw [trace, crossings_append, mem_append] at issued
  rcases issued with earlier | now
  · obtain ⟨t, among, named, length⟩ := before.held x earlier
    obtain ⟨u, inside, same, longer⟩ := changed.ledgers_kept before.sound t among
    exact ⟨u, inside, same.trans named, length.trans longer⟩
  rcases changed.issues with
    none_ | ⟨_, _, _, _, _, s, entry, _, _, _, _, _, _, _, _, written, only⟩
  · rw [none_] at now
    cases now
  · rw [only] at now
    rw [mem_singleton.mp now]
    exact ⟨s.ticket, written, rfl, Nat.le_refl _⟩

theorem Unreplayed.stored_next (before : Unreplayed w) (happened : w.next e = some w') :
    ∀ first t entry last, w'.trace = first ++ Action.cross t entry :: last →
      t.ledger.getLast? = some entry ∧ ∃ old, .update old t ∈ first := by
  obtain ⟨_, _, trace⟩ := World.next_inv happened
  intro first t entry last split
  rw [trace] at split
  rcases append_eq_append_cons split with ⟨rest, earlier⟩ | ⟨middle, rfl, now⟩
  · exact before.stored first t entry rest earlier
  have issued : (t, entry) ∈ crossings (e.actions w.store) := by
    rw [now]
    exact mem_filterMap.mpr ⟨.cross t entry, by simp, rfl⟩
  rcases (World.next_changed happened).issues with
    none_ | ⟨_, _, _, context, _, s, found, head, tail, reads, ran, issue, acts, quiet, silent, _, only⟩
  · rw [none_] at issued
    cases issued
  rw [only, mem_singleton] at issued
  obtain ⟨rfl, rfl⟩ := Prod.mk.injEq .. ▸ issued
  refine ⟨by rw [step_ledger ran, issue]; simp, context.ticket, mem_append_right _ ?_⟩
  -- Before the update nothing is issued, so the crossing comes after it.
  rcases append_eq_append_cons (acts.symm.trans now) with ⟨rest, early⟩ | ⟨more, same, later⟩
  · exact (quiet (.cross s.ticket entry) (by simp [early])).elim
  cases more with
  | nil => cases later
  | cons update more =>
    obtain ⟨rfl, _⟩ := List.cons.injEq .. ▸ later
    simp [same]

theorem Unreplayed.next (before : Unreplayed w) (happened : w.next e = some w') : Unreplayed w' where
  sound := World.next_sound happened before.sound
  named := (Timeline.shows_read before.named (World.next_inv happened).1).named
  timely := before.timely_next happened
  distinct := before.distinct_next happened
  held := before.held_next happened
  stored := before.stored_next happened

theorem Unreplayed.run {installation : Text} {events : List WorldEvent}
    (ran : (World.start installation).run events = some w) : Unreplayed w :=
  foldlM_keeps Unreplayed (fun _ _ _ _ before happened => before.next happened)
    (Unreplayed.start installation) ran

/-- No crossing is replayed. In every run each ledger entry is issued at most
once, after a ticket that ends in it was stored, and the step of any further
round issues a crossing only with its evidence. -/
theorem no_crossing_is_replayed {installation : Text} {events : List WorldEvent} {w : World}
    (ran : (World.start installation).run events = some w) :
    ((crossings w.trace).map entryOf).Nodup ∧
    (∀ before t entry after, w.trace = before ++ .cross t entry :: after →
      t.ledger.getLast? = some entry ∧ ∃ old, .update old t ∈ before) ∧
    ∀ (c : Coordinator) (r : Round) (ticketId : Text) (context : Context) (s : Step) (entry : Entry),
      (w.time.read r.clock).isSome → c.reads w.store r ticketId = some context →
      step context = .ok s → s.issue = some entry → Evidence context entry := by
  have kept := Unreplayed.run ran
  refine ⟨kept.distinct, kept.stored, ?_⟩
  intro c r ticketId context s entry clock read stepped issued
  obtain ⟨stored, reads⟩ := Coordinator.reads_some read
  obtain ⟨time, read⟩ := isSome_iff_exists.mp clock
  have shows_ := Timeline.shows_read kept.named read
  rw [← reads.now] at shows_
  have timely := kept.timely _ (Store.ticket_some reads.ticket).1 _ reads.plan
  refine (timely.at_read read).evidence shows_ ?_ stepped issued
  rw [reads.authorizations]
  exact kept.sound.authorizationsOf_distinct _

end Running

/-! A run of the sample plan that publishes twice: the store read the first
attempt's publication as absent. -/

def absentRead : Observation where
  toBuilder := { sampleFact .bundleAbsent 5 with
    component := sampleComponent, route := .host, subject := sampleId 'c', plan := sampleId '2' }
  valid := by decide +kernel

/-- A whole round of a new coordinator on the sample ticket, without the device. -/
def hostRound (freshId : Char) (host : List Observation) : WorldEvent :=
  .round ⟨sampleDigest '5', false, false, none⟩ ⟨none, [], host, sampleId freshId, none⟩
    (sampleId '6') 9

def publishingEvents : List WorldEvent :=
  [.plan samplePlan, .authorization sampleStage, .selection sampleSelection, .ticket sampleTicket,
    hostRound 'a' [], hostRound 'a' [], hostRound 'a' [], hostRound 'c' [],
    hostRound 'd' [absentRead]]

theorem publish_is_repeated : ∃ w, (World.start (sampleId '1')).run publishingEvents = some w ∧
    (crossings w.trace).map (fun x => x.2.crossing) = [.publish, .publish] ∧
    ((crossings w.trace).map entryOf).Nodup := by
  have issued : ((World.start (sampleId '1')).run publishingEvents).map
      (fun w => (crossings w.trace).map (fun x => x.2.crossing)) = some [.publish, .publish] := by
    decide +kernel
  obtain ⟨w, ran, twice⟩ := map_eq_some_iff.mp issued
  exact ⟨w, ran, twice, (no_crossing_is_replayed ran).1⟩

end Andrix.Deployment
