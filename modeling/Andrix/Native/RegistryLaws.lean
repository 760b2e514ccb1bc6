import Andrix.Native.Registry

/-! Start requests are idempotent. A key is allocated above its stream's high water
mark and raises it, serials only rise, and a stream leaves the table only when it is
closed, so the two ways of looking for a request agree while the stream is open. -/
namespace Andrix.Native
open Andrix.Lib List UInt64

/-- A reservation that was accepted: its key and the work it got. -/
structure Allocation where
  stream : UInt64
  sequence : UInt64
  work : WorkIdentity
  deriving DecidableEq, Repr

def allocated : RegistryCall × RegistryReply → Option Allocation
  | (.reserve (.own stream) sequence _, .reserved reply) =>
    if reply.result = .accepted then some ⟨stream, sequence, reply.work⟩ else none
  | _ => none

def issued : RegistryCall × RegistryReply → Option UInt64
  | (.openStream _, .stream (.own serial)) => some serial
  | _ => none

/-- Two allocations with different keys and works of different serials. -/
def Allocation.Apart (a b : Allocation) : Prop :=
  (a.stream ≠ b.stream ∨ a.sequence ≠ b.sequence) ∧ a.work.serial ≠ b.work.serial

/-- A slot may be taken again: it is empty or failed, or its record is forgotten and
only the slot points to it and only the record to its gate. -/
def Recyclable (g : Registry) (counts : UseCounts) (slot : Slot) : Prop :=
  slot.phase = .empty ∨ slot.phase = .failed ∨
    ∃ n, slot.phase = .ready ∧ slot.record = some n ∧ g.forgotten[n]? = some true ∧
      counts.record n = 1 ∧ counts.gate n = 1

variable {g : Registry} {counts : UseCounts}

theorem slotFree_recyclable {slot : Slot}
    (free : g.slotFree counts slot = true) : Recyclable g counts slot := by
  simp only [Registry.slotFree, Bool.or_eq_true, Bool.and_eq_true, decide_eq_true_eq] at free
  rcases free with (empty | failed) | ⟨⟨⟨ready, record⟩, forgotten⟩, gate⟩
  · exact .inl empty
  · exact .inr (.inl failed)
  cases found : slot.record with
  | none =>
    rw [found] at record
    cases record
  | some n =>
    rw [found] at record gate forgotten
    simp only [Option.any_some, decide_eq_true_eq] at record gate
    refine .inr (.inr ⟨n, ready, found, ?_, record, gate⟩)
    simp only [Registry.isForgotten, Option.bind_some] at forgotten
    cases marked : g.forgotten[n]? with
    | none =>
      rw [marked] at forgotten
      cases forgotten
    | some flag =>
      rw [marked] at forgotten
      rw [show flag = true from forgotten]

/-! ## One call -/

/-- A call that allocates nothing and opens nothing. -/
structure Quiet (g g' : Registry) : Prop where
  works : g'.workSerial = g.workSerial
  streams : g'.streamSerial = g.streamSerial
  table : g'.streams = g.streams
  highWater : ∀ serial, (g'.streamOf serial).highWater = (g.streamOf serial).highWater
  closed : ∀ serial, (g.streamOf serial).closed = true → (g'.streamOf serial).closed = true

theorem Quiet.refl (g : Registry) : Quiet g g := ⟨rfl, rfl, rfl, fun _ => rfl, fun _ => id⟩

theorem quiet_close_stream (g : Registry) (serial : UInt64) (slots : List Slot) :
    Quiet g { g.setStream serial { g.streamOf serial with closed := true } with slots } := by
  refine ⟨rfl, rfl, rfl, fun n => ?_, fun n closed => ?_⟩
  · by_cases same : n = serial <;> simp [Registry.setStream, same]
  · by_cases same : n = serial
    · simp [Registry.setStream, same]
    · simpa [Registry.setStream, same] using closed

structure Opens (g : Registry) (serial : UInt64) (g' : Registry) : Prop where
  number : serial.toNat = g.streamSerial.toNat + 1
  works : g'.workSerial = g.workSerial
  streams : g'.streamSerial = serial
  table : ∀ n, (g.streamOf n).closed = false → some n ∈ g.streams → some n ∈ g'.streams
  entered : some serial ∈ g'.streams
  streamOf : ∀ n, n ≠ serial → g'.streamOf n = g.streamOf n

theorem openStream_cases (g : Registry) (alone : UInt64 → Bool) :
    g.openStream alone = (.empty, g) ∨
      ∃ serial g', g.openStream alone = (.own serial, g') ∧ Opens g serial g' ∧ g'.slots = g.slots := by
  by_cases refuses : (g.closed || decide (g.streamSerial ≥ g.limits.streamSerialLimit)) = true
  · exact .inl (by rw [Registry.openStream, if_pos refuses])
  cases found : g.streams.findIdx? (g.streamFree alone) with
  | none => exact .inl (by rw [Registry.openStream, if_neg refuses, found])
  | some place =>
    have value : g.openStream alone =
        (.own (g.streamSerial + 1),
          { g with
            streamSerial := g.streamSerial + 1
            streams := g.streams.set place (some (g.streamSerial + 1)) }.setStream
            (g.streamSerial + 1) {}) := by
      rw [Registry.openStream, if_neg refuses, found]
    refine .inr ⟨_, _, value, ?_, rfl⟩
    simp only [Bool.or_eq_true, decide_eq_true_eq, not_or, ge_iff_le, UInt64.not_le] at refuses
    have below := lt_iff_toNat_lt.mp refuses.2
    have limit := g.limits.streamSerialLimit.toNat_lt
    obtain ⟨bound, free, _⟩ := List.findIdx?_eq_some_iff_getElem.mp found
    refine ⟨?_, rfl, rfl, fun n open_ among => ?_, ?_, fun n other => if_neg other⟩
    · rw [UInt64.toNat_add, show (1 : UInt64).toNat = 1 from rfl]
      exact Nat.mod_eq_of_lt (by omega)
    · -- Only the place of a closed stream is taken.
      obtain ⟨m, inside, same⟩ := mem_iff_getElem.mp among
      refine mem_iff_getElem.mpr ⟨m, by simpa [Registry.setStream] using inside, ?_⟩
      have apart : place ≠ m := by
        rintro rfl
        rw [same] at free
        simp [Registry.streamFree, open_] at free
      simp [Registry.setStream, getElem_set_ne apart, same]
    · exact mem_iff_getElem.mpr ⟨place, by simpa [Registry.setStream] using bound,
        by simp [Registry.setStream]⟩

/-- What an accepted reservation does. -/
structure Allocates (g : Registry) (serial sequence : UInt64) (counts : UseCounts) (work : WorkIdentity)
    (g' : Registry) : Prop where
  above : (g.streamOf serial).highWater < sequence
  number : work.serial.toNat = g.workSerial.toNat + 1
  works : g'.workSerial = work.serial
  streams : g'.streamSerial = g.streamSerial
  table : g'.streams = g.streams
  raised : (g'.streamOf serial).highWater = sequence
  closed : ∀ n, (g'.streamOf n).closed = (g.streamOf n).closed
  streamOf : ∀ n, n ≠ serial → g'.streamOf n = g.streamOf n
  slot : ∃ place slot, g.slots[place]? = some slot ∧ Recyclable g counts slot ∧
    g'.slots = g.slots.set place
      { work := work, stream := serial, requestSequence := sequence, phase := .allocating }

theorem retained_result (g : Registry) (slot : Slot) :
    (g.retained slot).result ≠ .accepted ∧ (g.retained slot).result ≠ .notFound ∧
      (g.retained slot).result ≠ .capacity ∧ (g.retained slot).result ≠ .exhausted := by
  unfold Registry.retained
  repeat' split
  all_goals simp

theorem reserve_cases (g : Registry) (stream : WorkRequestStream) (sequence : UInt64)
    (counts : UseCounts) :
    ((g.reserve stream sequence counts).2 = g ∧
        (g.reserve stream sequence counts).1.result ≠ .accepted) ∨
      ∃ serial work g', stream = .own serial ∧
        g.reserve stream sequence counts =
          ({ result := .accepted, work := work, allocation := .own work }, g') ∧
        Allocates g serial sequence counts work g' := by
  cases stream with
  | empty | foreign => exact .inl ⟨rfl, by simp [Registry.reserve]⟩
  | own serial =>
    by_cases zero : sequence = 0
    · exact .inl (by simp [Registry.reserve, zero])
    by_cases closed : (g.closed || (g.streamOf serial).closed) = true
    · exact .inl (by rw [Registry.reserve, if_neg zero, if_pos closed]; simp)
    cases known : g.findRequest serial sequence with
    | some slot =>
      refine .inl ?_
      simp only [Registry.reserve, if_neg zero, if_neg closed, known]
      exact ⟨trivial, (retained_result g slot).1⟩
    | none =>
      by_cases low : sequence ≤ (g.streamOf serial).highWater
      · exact .inl (by simp only [Registry.reserve, if_neg zero, if_neg closed, known, if_pos low]; simp)
      by_cases spent : g.workSerial ≥ g.limits.workSerialLimit
      · exact .inl (by
          simp only [Registry.reserve, if_neg zero, if_neg closed, known, if_neg low, if_pos spent]; simp)
      cases found : g.slots.findIdx? (g.slotFree counts) with
      | none =>
        exact .inl (by
          simp only [Registry.reserve, if_neg zero, if_neg closed, known, if_neg low, if_neg spent, found]
          simp)
      | some place =>
        have value : g.reserve (.own serial) sequence counts =
            ({ result := .accepted
               work := ⟨g.manager, g.workSerial + 1⟩
               allocation := .own ⟨g.manager, g.workSerial + 1⟩ },
              { g with
                workSerial := g.workSerial + 1
                slots := g.slots.set place
                  { work := ⟨g.manager, g.workSerial + 1⟩
                    stream := serial
                    requestSequence := sequence
                    phase := .allocating } }.setStream
                serial { g.streamOf serial with highWater := sequence }) := by
          simp only [Registry.reserve, if_neg zero, if_neg closed, known, if_neg low, if_neg spent, found]
        refine .inr ⟨serial, _, _, rfl, value, ?_⟩
        have below := lt_iff_toNat_lt.mp (UInt64.not_le.mp spent)
        have limit := g.limits.workSerialLimit.toNat_lt
        obtain ⟨bound, free, _⟩ := List.findIdx?_eq_some_iff_getElem.mp found
        refine ⟨UInt64.not_le.mp low, ?_, rfl, rfl, rfl, by simp [Registry.setStream], fun n => ?_,
          fun n other => if_neg other, ?_⟩
        · rw [UInt64.toNat_add, show (1 : UInt64).toNat = 1 from rfl]
          exact Nat.mod_eq_of_lt (by omega)
        · by_cases same : n = serial <;> simp [Registry.setStream, same]
        · exact ⟨place, _, List.getElem?_eq_getElem bound, slotFree_recyclable free, rfl⟩

/-- A slot that stays as it is, or whose allocation goes on under the same key. -/
def Slot.Kept (slot slot' : Slot) : Prop :=
  slot' = slot ∨ slot.phase = .allocating ∧ slot'.phase ≠ .empty ∧ slot'.work = slot.work ∧
    slot'.stream = slot.stream ∧ slot'.requestSequence = slot.requestSequence

def SlotsKept (slots slots' : List Slot) : Prop :=
  slots'.length = slots.length ∧ ∀ (k : Nat) (slot slot' : Slot), slots[k]? = some slot →
    slots'[k]? = some slot' → slot.Kept slot'

theorem SlotsKept.refl (slots : List Slot) : SlotsKept slots slots := by
  refine ⟨rfl, fun k slot slot' found found' => .inl ?_⟩
  cases found.symm.trans found'
  rfl

theorem slots_kept_map {slots : List Slot} {change : Slot → Slot}
    (keeps : ∀ slot : Slot, slot.Kept (change slot)) :
    SlotsKept slots (slots.map change) := by
  refine ⟨length_map _, fun k slot slot' found found' => ?_⟩
  rw [List.getElem?_map, found] at found'
  cases found'
  exact keeps slot

theorem slots_kept_set {slots : List Slot} {place : Nat} {changed : Slot}
    (keeps : ∀ slot : Slot, slots[place]? = some slot → slot.Kept changed) :
    SlotsKept slots (slots.set place changed) := by
  refine ⟨length_set, fun k slot slot' found found' => ?_⟩
  by_cases same : place = k
  · subst same
    rw [List.getElem?_set_self (List.getElem?_eq_some_iff.mp found).1] at found'
    cases found'
    exact keeps slot found
  · rw [List.getElem?_set_ne same] at found'
    exact .inl (Option.some.inj (found'.symm.trans found))

/-- A call that allocates nothing, opens nothing and frees no slot. -/
structure Calm (g g' : Registry) : Prop extends Quiet g g' where
  slots : SlotsKept g.slots g'.slots

theorem Calm.refl (g : Registry) : Calm g g := ⟨.refl g, .refl _⟩

theorem Slot.Kept.cancelled (slot : Slot) (condition : Prop) [Decidable condition]
    (allocating : condition → slot.phase = .allocating) :
    slot.Kept (if condition then { slot with cancelled := true } else slot) := by
  by_cases holds : condition
  · rw [if_pos holds]
    refine .inr ⟨allocating holds, ?_, rfl, rfl, rfl⟩
    dsimp only
    rw [allocating holds]
    decide
  · rw [if_neg holds]
    exact .inl rfl

theorem closeStream_calm (g : Registry) (stream : WorkRequestStream) :
    Calm g (g.closeStream stream).2 := by
  cases stream with
  | empty | foreign => exact .refl g
  | own serial =>
    refine ⟨quiet_close_stream g serial _, slots_kept_map fun slot => ?_⟩
    refine Slot.Kept.cancelled slot _ fun both => ?_
    simp only [Bool.and_eq_true, decide_eq_true_eq] at both
    exact both.1

theorem closeStreamIfUnused_calm (g : Registry) (stream : WorkRequestStream) :
    Calm g (g.closeStreamIfUnused stream).2 := by
  cases stream with
  | empty | foreign => exact .refl g
  | own serial =>
    unfold Registry.closeStreamIfUnused
    dsimp only
    split
    · exact .refl g
    · exact ⟨quiet_close_stream g serial g.slots, .refl _⟩

theorem allocating_slot {place : Nat} {slot : Slot}
    (found : g.slots[place]? = some slot) (allocating : ¬ (g.slots[place]?.getD {}).phase ≠ .allocating) :
    g.slots[place]?.getD {} = slot ∧ slot.phase = .allocating := by
  rw [found] at allocating ⊢
  exact ⟨rfl, by simpa using allocating⟩

theorem reservationFinished_calm (g : Registry) (ticket : WorkReservation)
    (gate : Option ReservedGate) (error : Int) :
    Calm g (g.reservationFinished ticket gate error).2 := by
  cases ticket with
  | empty | foreign => exact .refl g
  | own work =>
    unfold Registry.reservationFinished
    dsimp only
    split
    · exact .refl g
    split
    · exact .refl g
    next place _ =>
    split
    · exact .refl g
    next allocating =>
    split
    · refine ⟨⟨rfl, rfl, rfl, fun _ => rfl, fun _ => id⟩, slots_kept_set fun slot found => ?_⟩
      obtain ⟨same, phase⟩ := allocating_slot found allocating
      rw [same]
      exact .inr ⟨phase, by simp, rfl, rfl, rfl⟩
    · refine ⟨⟨rfl, rfl, rfl, fun _ => rfl, fun _ => id⟩, slots_kept_set fun slot found => ?_⟩
      obtain ⟨same, phase⟩ := allocating_slot found allocating
      rw [same]
      exact .inr ⟨phase, by simp, rfl, rfl, rfl⟩

theorem cancelReservation_calm (g : Registry) (ticket : WorkReservation) :
    Calm g (g.cancelReservation ticket).2 := by
  cases ticket with
  | empty | foreign => exact .refl g
  | own work =>
    unfold Registry.cancelReservation
    dsimp only
    split
    · exact .refl g
    next place _ =>
    split
    · exact .refl g
    next allocating =>
    refine ⟨⟨rfl, rfl, rfl, fun _ => rfl, fun _ => id⟩, slots_kept_set fun slot found => ?_⟩
    obtain ⟨same, phase⟩ := allocating_slot found allocating
    rw [same]
    exact .inr ⟨phase, by simp [phase], rfl, rfl, rfl⟩

theorem forget_calm (g : Registry) (control : WorkControl) (complete : Bool) :
    Calm g (g.forget control complete).2 := by
  cases control with
  | empty | foreign => exact .refl g
  | own record =>
    unfold Registry.forget
    dsimp only
    repeat' split
    · exact .refl g
    · exact .refl g
    · exact ⟨⟨rfl, rfl, rfl, fun _ => rfl, fun _ => id⟩, .refl _⟩

theorem close_calm (g : Registry) : Calm g g.close := by
  refine ⟨⟨rfl, rfl, rfl, fun serial => ?_, fun serial closed => ?_⟩, slots_kept_map fun slot => ?_⟩
  · by_cases among : some serial ∈ g.streams <;> simp [Registry.close, among]
  · by_cases among : some serial ∈ g.streams <;> simp [Registry.close, among, closed]
  · exact Slot.Kept.cancelled slot _ id

theorem call_cases (g : Registry) (call : RegistryCall) :
    (Calm g (g.call call).2 ∧ allocated (call, (g.call call).1) = none ∧
        issued (call, (g.call call).1) = none) ∨
      (∃ alone serial, call = .openStream alone ∧ (g.call call).1 = .stream (.own serial) ∧
        Opens g serial (g.call call).2 ∧ (g.call call).2.slots = g.slots) ∨
      ∃ serial sequence counts work, call = .reserve (.own serial) sequence counts ∧
        (g.call call).1 =
          .reserved { result := .accepted, work := work, allocation := .own work } ∧
        Allocates g serial sequence counts work (g.call call).2 := by
  cases call with
  | openStream alone =>
    rcases openStream_cases g alone with same | ⟨serial, g', same, opens, slots⟩
    · simp only [Registry.call, same]
      exact .inl ⟨.refl g, rfl, rfl⟩
    · simp only [Registry.call, same]
      exact .inr (.inl ⟨alone, serial, rfl, rfl, opens, slots⟩)
  | reserve stream sequence counts =>
    rcases reserve_cases g stream sequence counts with ⟨same, refused⟩ | ⟨serial, work, g', rfl, same, allocates⟩
    · refine .inl ⟨?_, ?_, rfl⟩
      · simp only [Registry.call, same]
        exact .refl g
      · cases stream with
        | empty => rfl
        | foreign => rfl
        | own serial => exact if_neg refused
    · simp only [Registry.call, same]
      exact .inr (.inr ⟨serial, sequence, counts, work, rfl, rfl, allocates⟩)
  | closeStream stream => exact .inl ⟨closeStream_calm g stream, rfl, rfl⟩
  | closeStreamIfUnused stream => exact .inl ⟨closeStreamIfUnused_calm g stream, rfl, rfl⟩
  | reservationFinished ticket gate error =>
    exact .inl ⟨reservationFinished_calm g ticket gate error, rfl, rfl⟩
  | cancelReservation ticket => exact .inl ⟨cancelReservation_calm g ticket, rfl, rfl⟩
  | forget control complete => exact .inl ⟨forget_calm g control complete, rfl, rfl⟩
  | close => exact .inl ⟨close_calm g, rfl, rfl⟩
  | findStream | streamUnused | lookupRequest | find => exact .inl ⟨.refl g, rfl, rfl⟩

/-! ## Every run -/

/-- What every run keeps. -/
structure RegistryKept (run : RegistryRun) : Prop where
  bounds : ∀ a ∈ run.calls.filterMap allocated, a.stream ≤ run.registry.streamSerial ∧
    a.sequence ≤ (run.registry.streamOf a.stream).highWater ∧
    a.work.serial ≤ run.registry.workSerial
  apart : (run.calls.filterMap allocated).Pairwise Allocation.Apart
  below : ∀ serial ∈ run.calls.filterMap issued, serial ≤ run.registry.streamSerial
  serials : (run.calls.filterMap issued).Nodup
  table : ∀ serial, serial ≠ 0 → serial ≤ run.registry.streamSerial →
    (run.registry.streamOf serial).closed = false → some serial ∈ run.registry.streams

theorem RegistryRun.next_some {run next : RegistryRun} {call : RegistryCall}
    (moved : run.next call = some next) :
    run.registry.possible call = true ∧
      next = ⟨(run.registry.call call).2, (call, (run.registry.call call).1) :: run.calls⟩ := by
  unfold RegistryRun.next at moved
  split at moved
  · next possible =>
    cases moved
    exact ⟨possible, rfl⟩
  · cases moved

variable {event : RegistryCall × RegistryReply} {run : RegistryRun}

theorem RegistryKept.calm (kept : RegistryKept run)
    (calm : Calm run.registry g)
    (unallocated : allocated event = none) (unissued : issued event = none) :
    RegistryKept ⟨g, event :: run.calls⟩ where
  bounds := by
    intro a among
    rw [filterMap_cons_none unallocated] at among
    rw [calm.streams, calm.highWater, calm.works]
    exact kept.bounds a among
  apart := by
    rw [filterMap_cons_none unallocated]
    exact kept.apart
  below := by
    intro serial among
    rw [filterMap_cons_none unissued] at among
    rw [calm.streams]
    exact kept.below serial among
  serials := by
    rw [filterMap_cons_none unissued]
    exact kept.serials
  table := by
    intro serial nonzero below open_
    rw [calm.streams] at below
    rw [calm.table]
    refine kept.table serial nonzero below ?_
    by_contra closed
    rw [calm.closed serial (by simpa using closed)] at open_
    cases open_

theorem RegistryKept.opens (kept : RegistryKept run)
    {serial : UInt64} (opens : Opens run.registry serial g)
    (unallocated : allocated event = none) (opened : issued event = some serial) :
    RegistryKept ⟨g, event :: run.calls⟩ := by
  have fresh {n : UInt64} (below : n ≤ run.registry.streamSerial) : n ≠ serial ∧ n ≤ serial := by
    have number := opens.number
    have bound := le_iff_toNat_le.mp below
    refine ⟨?_, le_iff_toNat_le.mpr (by omega)⟩
    rintro rfl
    omega
  refine ⟨fun a among => ?_, ?_, fun n among => ?_, ?_, fun n nonzero below open_ => ?_⟩
  · rw [filterMap_cons_none unallocated] at among
    obtain ⟨stream, sequence, work⟩ := kept.bounds a among
    rw [opens.streams, opens.works, opens.streamOf _ (fresh stream).1]
    exact ⟨(fresh stream).2, sequence, work⟩
  · rw [filterMap_cons_none unallocated]
    exact kept.apart
  · rw [filterMap_cons_some opened] at among
    rw [opens.streams]
    rcases mem_cons.mp among with rfl | old
    · exact UInt64.le_refl _
    · exact (fresh (kept.below n old)).2
  · rw [filterMap_cons_some opened]
    refine nodup_cons.mpr ⟨fun among => ?_, kept.serials⟩
    exact (fresh (kept.below serial among)).1 rfl
  by_cases same : n = serial
  · rw [same]
    exact opens.entered
  rw [opens.streamOf n same] at open_
  rw [opens.streams] at below
  have older : n ≤ run.registry.streamSerial := by
    have number := opens.number
    have bound := le_iff_toNat_le.mp below
    have other : n.toNat ≠ serial.toNat := fun equal => same (UInt64.toNat_inj.mp equal)
    exact le_iff_toNat_le.mpr (by omega)
  exact opens.table n open_ (kept.table n nonzero older open_)

theorem RegistryKept.allocates (kept : RegistryKept run)
    {serial sequence : UInt64}
    {work : WorkIdentity} (allocates : Allocates run.registry serial sequence counts work g)
    (opened : serial ≤ run.registry.streamSerial)
    (made : allocated event = some ⟨serial, sequence, work⟩) (unissued : issued event = none) :
    RegistryKept ⟨g, event :: run.calls⟩ := by
  have number := allocates.number
  refine ⟨fun a among => ?_, ?_, fun n among => ?_, ?_, fun n nonzero below open_ => ?_⟩
  · rw [filterMap_cons_some made] at among
    rw [allocates.streams, allocates.works]
    rcases mem_cons.mp among with rfl | old
    · refine ⟨opened, ?_, UInt64.le_refl _⟩
      rw [allocates.raised]
      exact UInt64.le_refl _
    obtain ⟨stream, used, serials⟩ := kept.bounds a old
    refine ⟨stream, ?_, le_iff_toNat_le.mpr ?_⟩
    · by_cases same : a.stream = serial
      · rw [same, allocates.raised]
        rw [same] at used
        exact UInt64.le_of_lt (UInt64.lt_of_le_of_lt used allocates.above)
      · rw [allocates.streamOf _ same]
        exact used
    · have bound := le_iff_toNat_le.mp serials
      omega
  · rw [filterMap_cons_some made]
    refine pairwise_cons.mpr ⟨fun a old => ?_, kept.apart⟩
    obtain ⟨_, used, serials⟩ := kept.bounds a old
    refine ⟨?_, fun same => ?_⟩
    · by_cases same : serial = a.stream
      · refine .inr fun equal => ?_
        rw [← same] at used
        have below := lt_iff_toNat_lt.mp allocates.above
        have bound := le_iff_toNat_le.mp used
        rw [← equal] at bound
        exact absurd bound (Nat.not_le.mpr below)
      · exact .inl same
    · have bound := le_iff_toNat_le.mp serials
      rw [← same] at bound
      dsimp only at bound
      omega
  · rw [filterMap_cons_none unissued] at among
    rw [allocates.streams]
    exact kept.below n among
  · rw [filterMap_cons_none unissued]
    exact kept.serials
  · rw [allocates.closed] at open_
    rw [allocates.streams] at below
    rw [allocates.table]
    exact kept.table n nonzero below open_

theorem RegistryKept.next {run next : RegistryRun} (kept : RegistryKept run) {call : RegistryCall}
    (moved : run.next call = some next) : RegistryKept next := by
  obtain ⟨possible, rfl⟩ := RegistryRun.next_some moved
  rcases call_cases run.registry call with ⟨calm, unallocated, unissued⟩ |
    ⟨alone, serial, rfl, replied, opens, _⟩ | ⟨serial, sequence, counts, work, rfl, replied, allocates⟩
  · exact kept.calm calm unallocated unissued
  · exact kept.opens opens rfl (by rw [replied]; rfl)
  · simp only [Registry.possible, Registry.opened, Bool.and_eq_true, decide_eq_true_eq] at possible
    exact kept.allocates allocates possible.2 (by rw [replied]; rfl) rfl

theorem registryRun_kept {manager : UInt64} {limits : WorkRegistryLimits} {calls : List RegistryCall}
    (ran : registryRun manager limits calls = some run) : RegistryKept run := by
  refine foldlM_keeps RegistryKept (fun run call _ next kept moved => kept.next moved) ?_ ran
  refine ⟨by simp, List.Pairwise.nil, by simp, nodup_nil, fun serial nonzero below _ => ?_⟩
  refine absurd (UInt64.toNat_inj.mp ?_) nonzero
  have bound := le_iff_toNat_le.mp below
  exact Nat.le_zero.mp bound

/-- On an open stream the lookup and the reservation find the same. -/
theorem lookup_agrees (kept : RegistryKept run) {serial sequence : UInt64}
    (possible : run.registry.opened (.own serial) = true)
    (open_ : run.registry.closed = false) (streamOpen : (run.registry.streamOf serial).closed = false) :
    ((run.registry.lookupRequest serial sequence).result = .notFound ↔
      (run.registry.reserve (.own serial) sequence counts).1.result = .accepted ∨
      (run.registry.reserve (.own serial) sequence counts).1.result = .capacity ∨
      (run.registry.reserve (.own serial) sequence counts).1.result = .exhausted) ∧
    ((run.registry.lookupRequest serial sequence).result ≠ .notFound →
      run.registry.lookupRequest serial sequence =
        (run.registry.reserve (.own serial) sequence counts).1) := by
  simp only [Registry.opened, Bool.and_eq_true, decide_eq_true_eq] at possible
  have unserved : ¬ (run.registry.closed || (run.registry.streamOf serial).closed) = true := by
    simp [open_, streamOpen]
  by_cases zero : sequence = 0
  · simp [Registry.lookupRequest, Registry.reserve, zero]
  have known : ¬ (decide (serial = 0) || decide (sequence = 0)) = true := by simp [possible.1, zero]
  have own : ¬ serial > run.registry.streamSerial := UInt64.not_lt.mpr possible.2
  have listed : (run.registry.streams.any fun entry =>
      entry = some serial && !run.registry.closed && !(run.registry.streamOf serial).closed) = true := by
    refine any_eq_true.mpr ⟨some serial, kept.table serial possible.1 possible.2 streamOpen, ?_⟩
    simp [open_, streamOpen]
  cases found : run.registry.findRequest serial sequence with
  | some slot =>
    obtain ⟨accepted, notFound, capacity, exhausted⟩ := retained_result run.registry slot
    simp only [Registry.lookupRequest, Registry.reserve, if_neg known, if_neg own, if_neg zero,
      if_neg unserved, found]
    exact ⟨⟨fun same => absurd same notFound, fun among =>
      (among.elim (absurd · accepted) fun rest => rest.elim (absurd · capacity) (absurd · exhausted))⟩,
      fun _ => trivial⟩
  | none =>
    by_cases low : sequence ≤ (run.registry.streamOf serial).highWater
    · have below : ¬ sequence > (run.registry.streamOf serial).highWater := UInt64.not_lt.mpr low
      simp only [Registry.lookupRequest, Registry.reserve, if_neg known, if_neg own, if_neg zero,
        if_neg unserved, found, if_pos listed, if_neg below, if_pos low]
      simp
    have above : sequence > (run.registry.streamOf serial).highWater := UInt64.not_le.mp low
    simp only [Registry.lookupRequest, Registry.reserve, if_neg known, if_neg own, if_neg zero,
      if_neg unserved, found, if_pos listed, if_pos above, if_neg low]
    refine ⟨⟨fun _ => ?_, fun _ => trivial⟩, fun other => absurd rfl other⟩
    repeat' split
    · exact .inr (.inr rfl)
    · exact .inr (.inl rfl)
    · exact .inl rfl

/-- Start requests are idempotent: every key gets at most one work and no serial is
issued twice, a slot is taken again only when nobody can miss it, and the lookup of a
request changes nothing and tells what its reservation would find. -/
theorem start_requests_are_idempotent {manager : UInt64} {limits : WorkRegistryLimits}
    {calls : List RegistryCall} {run : RegistryRun}
    (ran : registryRun manager limits calls = some run) :
    (run.calls.filterMap allocated).Pairwise Allocation.Apart ∧
    (run.calls.filterMap issued).Nodup ∧
    (∀ call next, run.next call = some next →
      next.registry.slots.length = run.registry.slots.length ∧
      ∀ (k : Nat) (slot slot' : Slot), run.registry.slots[k]? = some slot →
        next.registry.slots[k]? = some slot' →
        slot.Kept slot' ∨ ∃ stream sequence counts, call = .reserve stream sequence counts ∧
          Recyclable run.registry counts slot) ∧
    (∀ stream sequence next, run.next (.lookupRequest stream sequence) = some next →
      next.registry = run.registry) ∧
    ∀ serial sequence counts, run.registry.opened (.own serial) = true →
      run.registry.closed = false → (run.registry.streamOf serial).closed = false →
      ((run.registry.lookupRequest serial sequence).result = .notFound ↔
        (run.registry.reserve (.own serial) sequence counts).1.result = .accepted ∨
        (run.registry.reserve (.own serial) sequence counts).1.result = .capacity ∨
        (run.registry.reserve (.own serial) sequence counts).1.result = .exhausted) ∧
      ((run.registry.lookupRequest serial sequence).result ≠ .notFound →
        run.registry.lookupRequest serial sequence =
          (run.registry.reserve (.own serial) sequence counts).1) := by
  have kept := registryRun_kept ran
  refine ⟨kept.apart, kept.serials, ?_, ?_, fun serial sequence counts => lookup_agrees kept⟩
  · intro call next moved
    obtain ⟨_, rfl⟩ := RegistryRun.next_some moved
    rcases call_cases run.registry call with ⟨calm, _⟩ | ⟨_, _, _, _, _, slots⟩ |
      ⟨serial, sequence, counts, work, rfl, _, allocates⟩
    · exact ⟨calm.slots.1, fun k slot slot' found found' => .inl (calm.slots.2 k slot slot' found found')⟩
    · refine ⟨by rw [slots], fun k slot slot' found found' => .inl (.inl ?_)⟩
      rw [slots] at found'
      exact Option.some.inj (found'.symm.trans found)
    obtain ⟨place, chosen, here, recyclable, slots⟩ := allocates.slot
    refine ⟨by rw [slots, length_set], fun k slot slot' found found' => ?_⟩
    by_cases same : place = k
    · subst same
      cases here.symm.trans found
      exact .inr ⟨_, _, counts, rfl, recyclable⟩
    · rw [slots, List.getElem?_set_ne same] at found'
      exact .inl (.inl (Option.some.inj (found'.symm.trans found)))
  · intro stream sequence next moved
    obtain ⟨_, rfl⟩ := RegistryRun.next_some moved
    rfl

def sampleLimits : WorkRegistryLimits :=
  { records := 1, requestStreams := 1, creators := 1, workSerialLimit := 9, streamSerialLimit := 9,
    operationLimit := 9 }

/-- Nobody but the table points to anything. -/
def unshared : UseCounts := ⟨fun _ => 1, fun _ => 1⟩

/-- A request, its retry and its end, and a second request in the slot of the first. -/
def recyclingCalls : List RegistryCall :=
  [.openStream fun _ => true, .reserve (.own 1) 1 unshared, .reserve (.own 1) 1 unshared,
    .reservationFinished (.own ⟨7, 1⟩) (some ⟨⟨7, 1⟩, .unbound, .unbound, .unbound⟩) 0,
    .forget (.own 0) true, .reserve (.own 1) 2 unshared, .lookupRequest 1 1]

theorem recycling_calls_stay_apart :
    ∃ run, registryRun 7 sampleLimits recyclingCalls = some run ∧
      run.calls.filterMap allocated = [⟨1, 2, ⟨7, 2⟩⟩, ⟨1, 1, ⟨7, 1⟩⟩] ∧
      (run.calls.filterMap allocated).Pairwise Allocation.Apart := by
  have ran : ∃ run, registryRun 7 sampleLimits recyclingCalls = some run ∧
      run.calls.filterMap allocated = [⟨1, 2, ⟨7, 2⟩⟩, ⟨1, 1, ⟨7, 1⟩⟩] :=
    ⟨_, rfl, rfl⟩
  obtain ⟨run, ran, made⟩ := ran
  exact ⟨run, ran, made, (start_requests_are_idempotent ran).1⟩

end Andrix.Native
