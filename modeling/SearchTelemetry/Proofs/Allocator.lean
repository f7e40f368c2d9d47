import Mathlib.Data.List.Pairwise
import Mathlib.Logic.Function.Basic
import SearchTelemetry.Allocator
/-!
# Allocator — threads that share a counter

Any number of threads make calls of one counter.  A call waits until it holds the counter, has its turn, and comes back at
some later moment; `step` takes any of these at any time, and a recording may come to whatever it likes when its turn is
there.  What a turn does depends only on how it finds the counter (`serves`), and each finds it as those before have
left it (`run_orderly`): so the identifiers that are issued have no gaps between them and none is issued twice.
-/
namespace SearchTelemetry
namespace Allocator

/-! ## One call -/

/-- The identifier that a call has recorded, if it comes so far. -/
def asks (a : Allocator) : Option QueryId :=
  if a.broken ∨ a.next = Int64.maxValue then none else some a.next

theorem asks_eq_some {a : Allocator} {id : QueryId} :
    a.asks = some id ↔ a.broken = false ∧ a.next ≠ Int64.maxValue ∧ id = a.next := by
  unfold asks
  split
  · rename_i h
    simp only [false_iff, reduceCtorEq]
    rintro ⟨hbroken, hnext, -⟩
    rcases h with h | h
    · rw [hbroken] at h
      cases h
    · exact hnext h
  · rename_i h
    obtain ⟨hbroken, hnext⟩ := not_or.1 h
    rw [Bool.not_eq_true] at hbroken
    simp [hbroken, hnext, eq_comm]

/-- The counter is of no use any more, or no identifier is left. -/
theorem allocateWith_of_asks_none {σ : Type} {a : Allocator} (h : a.asks = none) (record : QueryId → Recording σ) :
    a.allocateWith record = (a, .refused (if a.broken then brokenFault else exhaustedFault)) := by
  unfold asks at h
  unfold allocateWith
  by_cases hbroken : a.broken
  · simp [hbroken]
  · by_cases hnext : a.next = Int64.maxValue
    · simp [hbroken, hnext]
    · simp [hbroken, hnext] at h

/-- The recording of the next identifier settles what a call comes to. -/
theorem allocateWith_of_asks {σ : Type} {a : Allocator} {id : QueryId} (h : a.asks = some id)
    (record : QueryId → Recording σ) :
    a.allocateWith record =
      match record id with
      | .recorded state => ({ a with next := id + 1 }, .issued id state)
      | .refused fault => (a, .refused (unrecordedFault id fault))
      | .brokeOff => ({ a with broken := true }, .brokeOff) := by
  obtain ⟨hbroken, hnext, rfl⟩ := asks_eq_some.1 h
  have hworks : ¬a.broken = true := by simp [hbroken]
  unfold allocateWith
  exact (if_neg hworks).trans (if_neg hnext)

/-- The identifier behind one that is not the last is one more. -/
theorem toInt_add_one {id : QueryId} (h : id ≠ Int64.maxValue) : (id + 1).toInt = id.toInt + 1 := by
  have hne : id.toInt ≠ Int64.maxValue.toInt := fun heq => h (Int64.toInt_inj.1 heq)
  have hmax : Int64.maxValue.toInt = 2 ^ 63 - 1 := by decide
  have hone : (1 : Int64).toInt = 1 := by decide
  have hlt := id.toInt_lt
  have hle := id.le_toInt
  rw [Int64.toInt_add, hone]
  exact Int.bmod_eq_of_le (by omega) (by omega)

/-! ## Turns -/

/-- What a thread asks of a counter. -/
inductive Call (σ : Type) where
  /-- An identifier, once it is recorded; for `Allocator.allocate` the recording is one that always succeeds. -/
  | allocate (record : QueryId → Recording σ)
  | peek

inductive Answer (σ : Type) where
  | issue (issue : Issue σ)
  | next (answer : Except Fault QueryId)

/-- A call of a thread that holds the counter: the counter after it and what it comes to. -/
def serve {σ : Type} (a : Allocator) : Call σ → Allocator × Answer σ
  | .allocate record => ((a.allocateWith record).1, .issue (a.allocateWith record).2)
  | .peek => (a, .next a.peek)

/-- All that a call can do to a counter `a`, and what it can come to. -/
inductive Serves {σ : Type} (a : Allocator) : Call σ → Allocator → Answer σ → Prop where
  /-- The next identifier is recorded and issued, and the counter moves on. -/
  | issued {record : QueryId → Recording σ} {id : QueryId} {state : σ} : a.asks = some id → record id = .recorded state →
      Serves a (.allocate record) { a with next := id + 1 } (.issue (.issued id state))
  /-- It is not recorded, and the counter stays where it is. -/
  | refused {record : QueryId → Recording σ} {id : QueryId} {fault : Fault} : a.asks = some id →
      record id = .refused fault → Serves a (.allocate record) a (.issue (.refused (unrecordedFault id fault)))
  /-- Recording it does not come to an end, and the counter is of no use any more. -/
  | brokeOff {record : QueryId → Recording σ} {id : QueryId} : a.asks = some id → record id = .brokeOff →
      Serves a (.allocate record) { a with broken := true } (.issue .brokeOff)
  /-- None is left, and no recording is asked for. -/
  | exhausted {record : QueryId → Recording σ} : a.broken = false → a.next = Int64.maxValue →
      Serves a (.allocate record) a (.issue (.refused exhaustedFault))
  /-- The counter is of no use, and no recording is asked for. -/
  | broken {record : QueryId → Recording σ} : a.broken = true →
      Serves a (.allocate record) a (.issue (.refused brokenFault))
  | peeked : a.broken = false → Serves a .peek a (.next (.ok a.next))
  | unreadable : a.broken = true → Serves a .peek a (.next (.error brokenFault))

variable {σ : Type}

theorem serves (a : Allocator) (c : Call σ) : a.Serves c (a.serve c).1 (a.serve c).2 := by
  cases c with
  | peek =>
    cases hbroken : a.broken with
    | false => simpa [serve, peek, hbroken] using Serves.peeked hbroken
    | true => simpa [serve, peek, hbroken] using Serves.unreadable hbroken
  | allocate record =>
    cases hasks : a.asks with
    | none =>
      cases hbroken : a.broken with
      | true => simpa [serve, allocateWith_of_asks_none hasks, hbroken] using Serves.broken hbroken
      | false =>
        have hnext : a.next = Int64.maxValue := by simpa [asks, hbroken] using hasks
        simpa [serve, allocateWith_of_asks_none hasks, hbroken] using Serves.exhausted hbroken hnext
    | some id =>
      cases hrecord : record id with
      | recorded state => simpa [serve, allocateWith_of_asks hasks, hrecord] using Serves.issued hasks hrecord
      | refused fault => simpa [serve, allocateWith_of_asks hasks, hrecord] using Serves.refused hasks hrecord
      | brokeOff => simpa [serve, allocateWith_of_asks hasks, hrecord] using Serves.brokeOff hasks hrecord

/-- No recording has a say but for the identifier that it is asked for. -/
theorem allocateWith_congr {a : Allocator} {record record' : QueryId → Recording σ}
    (h : ∀ id, a.asks = some id → record id = record' id) : a.allocateWith record = a.allocateWith record' := by
  cases hasks : a.asks with
  | none => rw [allocateWith_of_asks_none hasks, allocateWith_of_asks_none hasks]
  | some id => rw [allocateWith_of_asks hasks, allocateWith_of_asks hasks, h id hasks]

/-- A call that has held the counter. -/
structure Turn (σ : Type) where
  thread : Nat
  call : Call σ
  called : Nat
  found : Allocator

namespace Turn

def left (t : Turn σ) : Allocator :=
  (t.found.serve t.call).1

def answer (t : Turn σ) : Answer σ :=
  (t.found.serve t.call).2

def issued? (t : Turn σ) : Option QueryId :=
  match t.answer with
  | .issue (.issued id _) => some id
  | _ => none

def BreaksOff (t : Turn σ) : Prop :=
  t.answer = .issue .brokeOff

/-- The call fails because the counter is of no use. -/
def Fails (t : Turn σ) : Prop :=
  t.answer = .issue (.refused brokenFault) ∨ t.answer = .next (.error brokenFault)

theorem serves (t : Turn σ) : t.found.Serves t.call t.left t.answer :=
  t.found.serves t.call

/-- An identifier is issued just if the recording was run with it and succeeded. -/
theorem issued_iff {t : Turn σ} {record : QueryId → Recording σ} (h : t.call = .allocate record) {id : QueryId}
    {state : σ} : t.answer = .issue (.issued id state) ↔ t.found.asks = some id ∧ record id = .recorded state := by
  constructor
  · intro hanswer
    have hserves := t.serves
    rw [h, hanswer] at hserves
    generalize t.left = left at hserves
    cases hserves with
    | issued hasks hrecord => exact ⟨hasks, hrecord⟩
  · rintro ⟨hasks, hrecord⟩
    unfold answer
    simp only [h, serve, allocateWith_of_asks hasks, hrecord]

theorem left_of_issued? {t : Turn σ} {id : QueryId} (h : t.issued? = some id) :
    t.left = { t.found with next := id + 1 } ∧ id = t.found.next ∧ id ≠ Int64.maxValue := by
  have hserves := t.serves
  unfold issued? at h
  generalize t.left = left, t.answer = answer, t.call = call at hserves h
  cases hserves with
  | @issued record id' state hasks hrecord =>
    obtain rfl : id' = id := Option.some.inj h
    obtain ⟨-, hnext, hid⟩ := asks_eq_some.1 hasks
    exact ⟨rfl, hid, hid ▸ hnext⟩
  | refused | brokeOff | exhausted | broken | peeked | unreadable => cases h

theorem next_left_of_issued?_none {t : Turn σ} (h : t.issued? = none) : t.left.next = t.found.next := by
  have hserves := t.serves
  unfold issued? at h
  generalize t.left = left, t.answer = answer, t.call = call at hserves h
  cases hserves with
  | issued => cases h
  | refused | brokeOff | exhausted | broken | peeked | unreadable => rfl

/-- A counter is broken behind a recording that broke off, and stays so. -/
theorem broken_left (t : Turn σ) : t.left.broken = true ↔ t.found.broken = true ∨ t.BreaksOff := by
  have hserves := t.serves
  unfold BreaksOff
  generalize t.left = left, t.answer = answer, t.call = call at hserves
  cases hserves with
  | brokeOff => simp
  | issued | refused | exhausted | broken | peeked | unreadable => simp

theorem fails_of_broken {t : Turn σ} (h : t.found.broken = true) : t.Fails ∧ t.found.asks = none := by
  have hserves := t.serves
  have hasks : t.found.asks = none := by simp [asks, h]
  refine ⟨?_, hasks⟩
  unfold Fails
  generalize t.left = left, t.answer = answer, t.call = call at hserves
  cases hserves with
  | issued hsome | refused hsome | brokeOff hsome => cases hasks.symm.trans hsome
  | exhausted hbroken | peeked hbroken => cases hbroken.symm.trans h
  | broken => exact .inl rfl
  | unreadable => exact .inr rfl

/-- All that a call can be refused for is that the counter is unavailable. -/
theorem unavailable {t : Turn σ} {fault : Fault}
    (h : t.answer = .issue (.refused fault) ∨ t.answer = .next (.error fault)) :
    ∃ message, fault = .allocatorUnavailable message := by
  have hserves := t.serves
  generalize t.left = left, t.answer = answer, t.call = call at hserves h
  cases hserves with
  | issued | brokeOff | peeked => rcases h with h | h <;> cases h
  | refused | exhausted | broken | unreadable =>
    rcases h with h | h <;> cases h
    exact ⟨_, rfl⟩

def record? (t : Turn σ) : Option (QueryId → Recording σ) :=
  match t.call with
  | .allocate record => some record
  | .peek => none

def issue? (t : Turn σ) : Option (Issue σ) :=
  match t.answer with
  | .issue issue => some issue
  | .next _ => none

end Turn

/-! ## Turns in a row -/

def issuedIn (ts : List (Turn σ)) : List QueryId :=
  ts.filterMap Turn.issued?

theorem issuedIn_append_singleton (ts : List (Turn σ)) (t : Turn σ) :
    issuedIn (ts ++ [t]) = issuedIn ts ++ t.issued?.toList := by
  cases hissued : t.issued? <;> simp [issuedIn, hissued]

theorem run_append_singleton (a : Allocator) (records : List (QueryId → Recording σ)) (record : QueryId → Recording σ) :
    a.run (records ++ [record]) =
      let (b, issues) := a.run records
      ((b.allocateWith record).1, issues ++ [(b.allocateWith record).2]) := by
  induction records generalizing a with
  | nil => rfl
  | cons r records ih =>
    simp only [List.cons_append, run, ih]

/-- A turn goes as the next call of a run does. -/
theorem run_turn {a : Allocator} {before : List (Turn σ)} {t : Turn σ} {issues : List (Issue σ)}
    (h : a.run (before.filterMap Turn.record?) = (t.found, issues)) :
    a.run ((before ++ [t]).filterMap Turn.record?) = (t.left, issues ++ t.issue?.toList) := by
  rw [List.filterMap_append]
  cases hcall : t.call with
  | peek =>
    have hrecord : t.record? = none := by simp only [Turn.record?, hcall]
    have hleft : t.left = t.found := by simp only [Turn.left, hcall, serve]
    have hissue : t.issue? = none := by simp only [Turn.issue?, Turn.answer, hcall, serve]
    simp [hrecord, h, hleft, hissue]
  | allocate record =>
    have hrecord : t.record? = some record := by simp only [Turn.record?, hcall]
    have hleft : t.left = (t.found.allocateWith record).1 := by simp only [Turn.left, hcall, serve]
    have hissue : t.issue? = some (t.found.allocateWith record).2 := by
      simp only [Turn.issue?, Turn.answer, hcall, serve]
    have hone : [t].filterMap Turn.record? = [record] := by simp [hrecord]
    rw [hone, run_append_singleton, h, hleft, hissue]
    rfl

/-! ## Threads -/

inductive Phase where
  | idle
  /-- It has made a call, at this moment, and waits for the counter. -/
  | waiting (called : Nat)
  /-- Its call has had this turn, and comes back. -/
  | leaving (turn : Nat)

/-- A counter and the threads that share it.  A moment is the number of steps before it. -/
structure Threads (σ : Type) where
  counter : Allocator
  phase : Nat → Phase
  now : Nat
  /-- The calls that have held the counter, in this order. -/
  turns : List (Turn σ)
  /-- The moment at which the call of a turn came back, if it has. -/
  back : Nat → Option Nat

namespace Threads

inductive Step (σ : Type) where
  | call (thread : Nat)
  /-- A thread that waits gets hold of the counter, does what it called for, and lets go of the counter. -/
  | hold (thread : Nat) (call : Call σ)
  | back (thread : Nat)

/-- A counter that begins with an identifier, before any call. -/
def start (first : QueryId) : Threads σ :=
  ⟨.ofFirst first, fun _ => .idle, 0, [], fun _ => none⟩

/-- The threads after a step.  Nothing happens where the thread is not in the phase for it. -/
def step (s : Threads σ) : Step σ → Threads σ
  | .call thread =>
    match s.phase thread with
    | .idle => { s with phase := Function.update s.phase thread (.waiting s.now), now := s.now + 1 }
    | _ => s
  | .hold thread call =>
    match s.phase thread with
    | .waiting called =>
      { s with
        counter := (s.counter.serve call).1
        phase := Function.update s.phase thread (.leaving s.turns.length)
        now := s.now + 1
        turns := s.turns ++ [⟨thread, call, called, s.counter⟩] }
    | _ => s
  | .back thread =>
    match s.phase thread with
    | .leaving turn =>
      { s with
        phase := Function.update s.phase thread .idle
        now := s.now + 1
        back := Function.update s.back turn (some s.now) }
    | _ => s

def run : Threads σ → List (Step σ) → Threads σ
  | s, [] => s
  | s, t :: ts => run (s.step t) ts

/-! ### What each step keeps -/

/-- What has become of a counter that began with `first`. -/
structure Counted (first : QueryId) (counter : Allocator) (turns : List (Turn σ)) : Prop where
  serial : (ofFirst first).run (turns.filterMap Turn.record?) = (counter, turns.filterMap Turn.issue?)
  found : ∀ before t after, turns = before ++ t :: after →
    ((ofFirst first).run (before.filterMap Turn.record?)).1 = t.found
  interval : (issuedIn turns).map (·.toInt) = (List.range (issuedIn turns).length).map fun k : Nat => first.toInt + k
  next : counter.next.toInt = first.toInt + (issuedIn turns).length
  spent : Int64.maxValue ∉ issuedIn turns
  broken : turns.Pairwise fun t u => t.BreaksOff → u.found.broken = true
  counterBroken : ∀ t ∈ turns, t.BreaksOff → counter.broken = true

theorem Counted.turn {first : QueryId} {counter : Allocator} {turns : List (Turn σ)} (h : Counted first counter turns)
    {t : Turn σ} (ht : t.found = counter) : Counted first t.left (turns ++ [t]) where
  serial := by
    subst ht
    rw [run_turn h.serial, List.filterMap_append]
    cases hissue : t.issue? <;> simp [hissue]
  found before u after heq := by
    rcases List.eq_nil_or_concat after with rfl | ⟨after', v, rfl⟩
    -- `u` is the turn that is added, or one of those before
    · obtain ⟨rfl, hu⟩ := List.append_inj' heq rfl
      rw [← List.singleton_inj.1 hu, ht, h.serial]
    · rw [List.concat_eq_append, ← List.cons_append, ← List.append_assoc] at heq
      exact h.found before u after' (List.append_inj' heq rfl).1
  interval := by
    have hall := h.interval
    rw [issuedIn_append_singleton]
    cases hissued : t.issued? with
    | none => simpa using hall
    | some id =>
      obtain ⟨-, hid, -⟩ := t.left_of_issued? hissued
      have hnext : id.toInt = first.toInt + (issuedIn turns).length := by rw [hid, ht, h.next]
      simp [hall, List.range_succ, hnext]
  next := by
    rw [issuedIn_append_singleton]
    cases hissued : t.issued? with
    | none =>
      rw [t.next_left_of_issued?_none hissued, ht, h.next]
      simp
    | some id =>
      obtain ⟨hleft, hid, hne⟩ := t.left_of_issued? hissued
      have hone : t.left.next.toInt = id.toInt + 1 := by
        rw [hleft]
        exact toInt_add_one hne
      rw [hone, hid, ht, h.next]
      simp [Int.add_assoc]
  spent := by
    rw [issuedIn_append_singleton, List.mem_append, not_or]
    refine ⟨h.spent, ?_⟩
    intro hmem
    exact (t.left_of_issued? (Option.mem_toList.1 hmem)).2.2 rfl
  broken := by
    refine List.pairwise_append.2 ⟨h.broken, List.pairwise_singleton _ t, ?_⟩
    intro u hu v hv hbreaks
    rw [List.mem_singleton.1 hv, ht]
    exact h.counterBroken u hu hbreaks
  counterBroken u hu hbreaks := by
    rw [t.broken_left, ht]
    rcases List.mem_append.1 hu with hu | hu
    · exact .inl (h.counterBroken u hu hbreaks)
    · rw [List.mem_singleton.1 hu] at hbreaks
      exact .inr hbreaks

/-- When calls were made and came back.  A thread has one call at a time. -/
structure Timed (s : Threads σ) : Prop where
  called : ∀ t ∈ s.turns, t.called < s.now
  waiting : ∀ thread m, s.phase thread = .waiting m → m < s.now ∧ ∀ t ∈ s.turns, t.thread = thread → t.called < m
  leaving : ∀ thread i, s.phase thread = .leaving i → i < s.turns.length
  own : ∀ thread, (s.turns.filter (·.thread = thread)).Pairwise (·.called < ·.called)
  back : ∀ i m, s.back i = some m → i < s.turns.length
  apart : ∀ i j b m, s.back i = some m → s.turns[j]? = some b → m ≤ b.called → i < j

theorem timed_start (first : QueryId) : (start first : Threads σ).Timed where
  called := nofun
  waiting := nofun
  leaving := nofun
  own _ := .nil
  back := nofun
  apart := nofun

theorem Timed.call {s : Threads σ} (h : s.Timed) (thread : Nat) :
    Timed { s with phase := Function.update s.phase thread (.waiting s.now), now := s.now + 1 } where
  called t ht := Nat.lt_succ_of_lt (h.called t ht)
  waiting other m hphase := by
    by_cases heq : other = thread
    · subst heq
      obtain rfl : s.now = m := by simpa using hphase
      exact ⟨Nat.lt_succ_self _, fun t ht _ => h.called t ht⟩
    · obtain ⟨hlt, hturns⟩ := h.waiting other m (by simpa [heq] using hphase)
      exact ⟨Nat.lt_succ_of_lt hlt, hturns⟩
  leaving other i hphase := by
    by_cases heq : other = thread
    · subst heq
      simp at hphase
    · exact h.leaving other i (by simpa [heq] using hphase)
  own := h.own
  back := h.back
  apart := h.apart

theorem Timed.hold {s : Threads σ} (h : s.Timed) {thread m : Nat} (hphase : s.phase thread = .waiting m)
    (counter : Allocator) {t : Turn σ} (hthread : t.thread = thread) (hcalled : t.called = m) :
    Timed { s with
      counter
      phase := Function.update s.phase thread (.leaving s.turns.length)
      now := s.now + 1
      turns := s.turns ++ [t] } where
  called u hu := by
    rcases List.mem_append.1 hu with hu | hu
    · exact Nat.lt_succ_of_lt (h.called u hu)
    · rw [List.mem_singleton.1 hu, hcalled]
      exact Nat.lt_succ_of_lt (h.waiting thread m hphase).1
  waiting other m' hother := by
    have hne : other ≠ thread := by
      rintro rfl
      simp at hother
    obtain ⟨hlt, hturns⟩ := h.waiting other m' (by simpa [hne] using hother)
    refine ⟨Nat.lt_succ_of_lt hlt, fun u hu hu' => ?_⟩
    rcases List.mem_append.1 hu with hu | hu
    · exact hturns u hu hu'
    · rw [List.mem_singleton.1 hu, hthread] at hu'
      exact absurd hu'.symm hne
  leaving other i hother := by
    rw [List.length_append]
    by_cases heq : other = thread
    · subst heq
      obtain rfl : s.turns.length = i := by simpa using hother
      exact Nat.lt_succ_self _
    · exact Nat.lt_succ_of_lt (h.leaving other i (by simpa [heq] using hother))
  own other := by
    rw [List.filter_append]
    refine List.pairwise_append.2 ⟨h.own other, List.Pairwise.filter _ (List.pairwise_singleton _ t), ?_⟩
    intro u hu v hv
    obtain ⟨hv, hother⟩ := List.mem_filter.1 hv
    obtain ⟨hu, hu'⟩ := List.mem_filter.1 hu
    rw [List.mem_singleton.1 hv] at hother ⊢
    rw [decide_eq_true_iff] at hother hu'
    rw [hcalled]
    exact (h.waiting thread m hphase).2 u hu (hu'.trans (hother.symm.trans hthread))
  back i m' hback := by
    rw [List.length_append]
    exact Nat.lt_succ_of_lt (h.back i m' hback)
  apart i j b m' hback hturn hle := by
    -- no call that comes back can be behind the turn that is added
    by_cases hj : j < s.turns.length
    · rw [List.getElem?_append_left hj] at hturn
      exact h.apart i j b m' hback hturn hle
    · exact Nat.lt_of_lt_of_le (h.back i m' hback) (Nat.le_of_not_lt hj)

theorem Timed.leave {s : Threads σ} (h : s.Timed) {thread turn : Nat} (hphase : s.phase thread = .leaving turn) :
    Timed { s with
      phase := Function.update s.phase thread .idle
      now := s.now + 1
      back := Function.update s.back turn (some s.now) } where
  called t ht := Nat.lt_succ_of_lt (h.called t ht)
  waiting other m hother := by
    have hne : other ≠ thread := by
      rintro rfl
      simp at hother
    obtain ⟨hlt, hturns⟩ := h.waiting other m (by simpa [hne] using hother)
    exact ⟨Nat.lt_succ_of_lt hlt, hturns⟩
  leaving other i hother := by
    have hne : other ≠ thread := by
      rintro rfl
      simp at hother
    exact h.leaving other i (by simpa [hne] using hother)
  own := h.own
  back i m hback := by
    by_cases heq : i = turn
    · exact heq ▸ h.leaving thread turn hphase
    · exact h.back i m (by simpa [heq] using hback)
  apart i j b m hback hturn hle := by
    by_cases heq : i = turn
    · subst heq
      -- it comes back now, and no turn so far is one of a call made later
      obtain rfl : s.now = m := by simpa using hback
      exact absurd (h.called b (List.mem_of_getElem? hturn)) (Nat.not_lt.2 hle)
    · exact h.apart i j b m (by simpa [heq] using hback) hturn hle

/-! ### What is so at any time -/

theorem counted_start (first : QueryId) : Counted (σ := σ) first (.ofFirst first) [] where
  serial := rfl
  found before t after heq := by simp at heq
  interval := rfl
  next := (Int.add_zero _).symm
  spent := nofun
  broken := .nil
  counterBroken := nofun

/-- **What a step keeps.** -/
theorem step_spec {first : QueryId} {s : Threads σ} (hcounted : Counted first s.counter s.turns) (htimed : s.Timed)
    (t : Step σ) : Counted first (s.step t).counter (s.step t).turns ∧ (s.step t).Timed := by
  cases t with
  | call thread =>
    simp only [step]
    split
    · exact ⟨hcounted, htimed.call thread⟩
    · exact ⟨hcounted, htimed⟩
  | hold thread call =>
    simp only [step]
    split
    · rename_i called hphase
      let turn : Turn σ := ⟨thread, call, called, s.counter⟩
      exact ⟨hcounted.turn (t := turn) rfl, htimed.hold hphase _ rfl rfl⟩
    · exact ⟨hcounted, htimed⟩
  | back thread =>
    simp only [step]
    split
    · rename_i turn hphase
      exact ⟨hcounted, htimed.leave hphase⟩
    · exact ⟨hcounted, htimed⟩

theorem run_spec {first : QueryId} : ∀ (ts : List (Step σ)) {s : Threads σ}, Counted first s.counter s.turns → s.Timed →
    Counted first (s.run ts).counter (s.run ts).turns ∧ (s.run ts).Timed
  | [], _, hcounted, htimed => ⟨hcounted, htimed⟩
  | t :: ts, _, hcounted, htimed =>
    have hstep := step_spec hcounted htimed t
    run_spec ts hstep.1 hstep.2

/-- Threads have shared a counter that began with `first`, and the turns are in order. -/
structure Orderly (first : QueryId) (s : Threads σ) : Prop where
  /-- The calls for identifiers come to what they would come to one after the other, in the order of their turns. -/
  serial : (ofFirst first).run (s.turns.filterMap Turn.record?) = (s.counter, s.turns.filterMap Turn.issue?)
  /-- Each finds the counter as the turns before it have left it. -/
  found : ∀ before t after, s.turns = before ++ t :: after →
    ((ofFirst first).run (before.filterMap Turn.record?)).1 = t.found
  /-- And so this is what each does. -/
  serves : ∀ t ∈ s.turns, t.found.Serves t.call t.left t.answer
  /-- An identifier is issued just if the recording was run with it and succeeded. -/
  recorded : ∀ t ∈ s.turns, ∀ record id state, t.call = .allocate record →
    (t.answer = .issue (.issued id state) ↔ t.found.asks = some id ∧ record id = .recorded state)
  /-- A recording is run with the identifier that is asked for and no other: it makes no difference what it would come to
  with others, nor what it is if none is asked for. -/
  asked : ∀ t ∈ s.turns, ∀ record record', t.call = .allocate record →
    (∀ id, t.found.asks = some id → record id = record' id) →
    t.found.allocateWith record = t.found.allocateWith record'
  /-- The identifiers that were issued are all those from the first one up to the counter, one after the other. -/
  interval : (issuedIn s.turns).map (·.toInt) = (List.range (issuedIn s.turns).length).map fun k : Nat => first.toInt + k
  next : s.counter.next.toInt = first.toInt + (issuedIn s.turns).length
  ascending : (issuedIn s.turns).Pairwise (· < ·)
  /-- The last identifier of all is not issued. -/
  spent : Int64.maxValue ∉ issuedIn s.turns
  /-- The calls of a thread have their turns in the order in which they were made, and its identifiers ascend. -/
  own : ∀ thread, (s.turns.filter (·.thread = thread)).Pairwise (·.called < ·.called) ∧
    (issuedIn (s.turns.filter (·.thread = thread))).Pairwise (· < ·)
  /-- A call that was made after another one had come back has the later turn and the greater identifier. -/
  apart : ∀ i j a b m, s.back i = some m → s.turns[i]? = some a → s.turns[j]? = some b → m ≤ b.called →
    i < j ∧ ∀ x y, a.issued? = some x → b.issued? = some y → x < y
  /-- All that a call can be refused for is that the counter is unavailable. -/
  unavailable : ∀ t ∈ s.turns, ∀ fault, t.answer = .issue (.refused fault) ∨ t.answer = .next (.error fault) →
    ∃ message, fault = .allocatorUnavailable message
  /-- After a recording that broke off all calls fail, and no recording is run. -/
  broken : s.turns.Pairwise fun t u => t.BreaksOff → u.Fails ∧ u.found.asks = none

theorem Counted.ascending {first : QueryId} {counter : Allocator} {turns : List (Turn σ)}
    (h : Counted first counter turns) : (issuedIn turns).Pairwise (· < ·) := by
  have hints : ((issuedIn turns).map (·.toInt)).Pairwise (· < ·) := by
    rw [h.interval]
    refine List.Pairwise.map _ (fun i j hlt => ?_) List.pairwise_lt_range
    exact Int.add_lt_add_left (Int.ofNat_lt.2 hlt) _
  exact (List.pairwise_map.1 hints).imp Int64.lt_iff_toInt_lt.2

/-- **Identifiers are issued one after the other**, whatever threads there are, however their calls interleave and
whatever becomes of the recordings. -/
theorem run_orderly (first : QueryId) (ts : List (Step σ)) : ((start first).run ts).Orderly first := by
  obtain ⟨hcounted, htimed⟩ := run_spec ts (counted_start first) (timed_start first)
  have hascending := hcounted.ascending
  refine ⟨hcounted.serial, hcounted.found, fun t _ => t.serves, fun t _ record id state h => t.issued_iff h, ?_,
    hcounted.interval, hcounted.next, hascending, hcounted.spent, fun thread => ⟨htimed.own thread, ?_⟩, ?_,
    fun t _ fault => t.unavailable, ?_⟩
  · intro t _ record record' _ h
    exact allocateWith_congr h
  · exact hascending.sublist (List.filter_sublist.filterMap _)
  · intro i j a b m hback ha hb hle
    have hlt := htimed.apart i j b m hback hb hle
    refine ⟨hlt, ?_⟩
    obtain ⟨hi, rfl⟩ := List.getElem?_eq_some_iff.1 ha
    obtain ⟨hj, rfl⟩ := List.getElem?_eq_some_iff.1 hb
    have hpair := List.pairwise_iff_getElem.1 (List.pairwise_filterMap.1 hascending) i j hi hj hlt
    exact fun x y hx hy => hpair x hx y hy
  · refine hcounted.broken.imp ?_
    intro t u h hbreaks
    exact Turn.fails_of_broken (h hbreaks)

end Threads
end Allocator
end SearchTelemetry
