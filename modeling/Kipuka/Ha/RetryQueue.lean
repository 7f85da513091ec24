/-
  The queue for requests that wait for a CA: `enqueue_request` and `drain_queue` in
  `src/ha/pool.rs`. A call holds the lock and reads the clock once for every entry it looks at.
-/
import Kipuka.Generic.Machine
import Kipuka.Generic.Runtime

namespace Kipuka.Ha

open Generic

structure QueueConfig where
  maxQueueSize : Nat
  queueTtlSecs : Nat
  maxCsrSize : Nat
  deriving DecidableEq, Repr

structure QueuedRequest where
  csrDer : List UInt8
  queuedAt : Int
  deriving DecidableEq, Repr

inductive EnqueueResult where
  | queued (retryAfterSecs queueDepth : Nat)
  | queueFull (maxSize : Nat)
  deriving DecidableEq, Repr

structure RetryQueue where
  queue : List QueuedRequest
  now : Int

inductive QueueOp where
  | enqueue (csrDer : List UInt8)
  | drain

/-- A call, how long after the one before it starts, and how long it pauses before each reading of
    the clock. -/
structure QueueCall where
  wait : Nat
  pauses : Nat → Nat
  op : QueueOp

/-- What a caller sees: the answer to a request and what a drain returns, with the time. -/
inductive QueueEntry where
  | enqueued (csrDer : List UInt8) (stop : Int) (result : EnqueueResult)
  | drained (start stop : Int) (live : List QueuedRequest)

/-- The entries that have not reached the TTL when the clock is read for them, and the last
    reading. -/
def retainLive (ttl : Nat) (pauses : Nat → Nat) :
    Nat → Int → List QueuedRequest → List QueuedRequest × Int
  | _, now, [] => ([], now)
  | i, now, req :: rest =>
    let now := now + pauses i
    let (live, stop) := retainLive ttl pauses (i + 1) now rest
    (if durationSince now req.queuedAt < ttl then req :: live else live, stop)

section

variable (cfg : QueueConfig)

def QueueConfig.ttl : Nat := fromSecs cfg.queueTtlSecs

def enqueueRequest (s : RetryQueue) (pauses : Nat → Nat) (csrDer : List UInt8) :
    RetryQueue × EnqueueResult :=
  if csrDer.length > cfg.maxCsrSize then (s, .queueFull cfg.maxQueueSize)
  else
    let (live, now) := retainLive cfg.ttl pauses 0 s.now s.queue
    if live.length ≥ cfg.maxQueueSize then (⟨live, now⟩, .queueFull cfg.maxQueueSize)
    else
      let req : QueuedRequest := ⟨csrDer, now + pauses s.queue.length⟩
      (⟨live ++ [req], req.queuedAt⟩, .queued 30 (live.length + 1))

def drainQueue (s : RetryQueue) (pauses : Nat → Nat) : RetryQueue × List QueuedRequest :=
  let (live, now) := retainLive cfg.ttl pauses 0 s.now s.queue
  (⟨[], now⟩, live)

def retryQueue : Machine RetryQueue QueueCall QueueEntry where
  step s call :=
    let s := { s with now := s.now + call.wait }
    match call.op with
    | .enqueue csrDer =>
      let (s', result) := enqueueRequest cfg s call.pauses csrDer
      (s', [.enqueued csrDer s'.now result])
    | .drain =>
      let (s', live) := drainQueue cfg s call.pauses
      (s', [.drained s.now s'.now live])

end

/-! ## What was accepted, and what of it is left -/

/-- A request is accepted by the answer `Queued`, at the time of the last reading of the clock. -/
def QueueEntry.accepted : QueueEntry → List QueuedRequest
  | .enqueued csrDer stop (.queued ..) => [⟨csrDer, stop⟩]
  | .enqueued _ _ (.queueFull _) => []
  | .drained .. => []

def QueueEntry.returned : QueueEntry → List QueuedRequest
  | .enqueued .. => []
  | .drained _ _ live => live

/-- The requests accepted after the last drain. -/
def pendingOf (log : List QueueEntry) : List QueuedRequest :=
  log.foldl (fun pending entry => match entry with
    | .enqueued .. => pending ++ entry.accepted
    | .drained .. => []) []

/-- The second list is the first without some elements, all of them in `dropped`; those that are
    left are in `kept`. -/
inductive Sifted {α : Type} (kept dropped : α → Prop) : List α → List α → Prop where
  | nil : Sifted kept dropped [] []
  | keep {a : α} {as bs : List α} (h : kept a) (rest : Sifted kept dropped as bs) :
      Sifted kept dropped (a :: as) (a :: bs)
  | drop {a : α} {as bs : List α} (h : dropped a) (rest : Sifted kept dropped as bs) :
      Sifted kept dropped (a :: as) bs

namespace Sifted

variable {α : Type} {kept kept' dropped dropped' : α → Prop} {as bs cs : List α}
  (h : Sifted kept dropped as bs)

include h

theorem mono (hk : ∀ a, kept a → kept' a) (hd : ∀ a, dropped a → dropped' a) :
    Sifted kept' dropped' as bs := by
  induction h with
  | nil => exact .nil
  | keep ha _ ih => exact .keep (hk _ ha) ih
  | drop ha _ ih => exact .drop (hd _ ha) ih

theorem trans (h' : Sifted kept' dropped bs cs) : Sifted kept' dropped as cs := by
  induction h generalizing cs with
  | nil => exact h'
  | keep _ _ ih =>
    cases h' with
    | keep ha rest => exact .keep ha (ih rest)
    | drop ha rest => exact .drop ha (ih rest)
  | drop ha _ ih => exact .drop ha (ih h')

theorem append (hcs : ∀ c ∈ cs, kept c) : Sifted kept dropped (as ++ cs) (bs ++ cs) := by
  induction h with
  | nil =>
    induction cs with
    | nil => exact .nil
    | cons c cs ih => exact .keep (hcs c List.mem_cons_self) (ih fun c hc => hcs c (.tail _ hc))
  | keep ha _ ih => exact .keep ha ih
  | drop ha _ ih => exact .drop ha ih

theorem sublist : bs.Sublist as := by
  induction h with
  | nil => exact .slnil
  | keep _ _ ih => exact ih.cons_cons _
  | drop _ _ ih => exact ih.cons _

end Sifted

/-! ## Every run -/

/-- The limit is not reached. -/
def Live (ttl : Nat) (now : Int) (req : QueuedRequest) : Prop :=
  durationSince now req.queuedAt < ttl

/-- The request has been queued for as long as the limit or longer. -/
def Expired (ttl : Nat) (now : Int) (req : QueuedRequest) : Prop :=
  ttl ≤ durationSince now req.queuedAt

variable {ttl : Nat} {now now' : Int} {req : QueuedRequest}

theorem Live.earlier (h : Live ttl now' req) (hle : now ≤ now') : Live ttl now req := by
  unfold Live durationSince at *
  omega

theorem Expired.later (h : Expired ttl now req) (hle : now ≤ now') : Expired ttl now' req := by
  unfold Expired durationSince at *
  omega

/-- The clock only moves on while the entries are looked at, so what is kept was live at the start
    and what is dropped has expired at the end. -/
theorem retainLive_sifted (ttl : Nat) (pauses : Nat → Nat) (i : Nat) (now : Int)
    (queue : List QueuedRequest) :
    now ≤ (retainLive ttl pauses i now queue).2 ∧
      Sifted (Live ttl now) (Expired ttl (retainLive ttl pauses i now queue).2) queue
        (retainLive ttl pauses i now queue).1 := by
  induction queue generalizing i now with
  | nil => exact ⟨le_refl now, .nil⟩
  | cons req rest ih =>
    obtain ⟨hstop, hsifted⟩ := ih (i + 1) (now + pauses i)
    have hstart : now ≤ now + pauses i := by omega
    have hrest := hsifted.mono (fun _ h => h.earlier hstart) fun _ h => h
    rw [retainLive]
    refine ⟨hstart.trans hstop, ?_⟩
    dsimp only
    split
    · next hlive => exact .keep (Live.earlier hlive hstart) hrest
    · next hlive => exact .drop (Expired.later (not_lt.mp hlive) hstop) hrest

variable {cfg : QueueConfig} {log : List QueueEntry} {s : RetryQueue}

structure Tracked (cfg : QueueConfig) (log : List QueueEntry) (s : RetryQueue) : Prop where
  bounded : s.queue.length ≤ cfg.maxQueueSize
  pending : Sifted (fun _ => True) (Expired cfg.ttl s.now) (pendingOf log) s.queue
  once : (log.flatMap QueueEntry.returned ++ s.queue).Sublist (log.flatMap QueueEntry.accepted)
  drains : Throughout (fun before entry => ∀ start stop live, entry = .drained start stop live →
    Sifted (Live cfg.ttl start) (Expired cfg.ttl stop) (pendingOf before) live) log

theorem pendingOf_concat (log : List QueueEntry) (entry : QueueEntry) :
    pendingOf (log ++ [entry]) = match entry with
      | .enqueued .. => pendingOf log ++ entry.accepted
      | .drained .. => [] := by
  unfold pendingOf
  rw [List.foldl_append]
  rfl

namespace Tracked

theorem wait (h : Tracked cfg log s) (n : Nat) : Tracked cfg log { s with now := s.now + n } where
  bounded := h.bounded
  pending := h.pending.mono (fun _ h => h) fun _ h =>
    h.later (Int.le_add_of_nonneg_right (Int.natCast_nonneg n))
  once := h.once
  drains := h.drains

variable {kept : QueuedRequest → Prop} {live : List QueuedRequest} {stop : Int}

section

variable (h : Tracked cfg log s) (hlater : s.now ≤ stop)
  (hlive : Sifted kept (Expired cfg.ttl stop) s.queue live)

include h hlater hlive

theorem left : Sifted kept (Expired cfg.ttl stop) (pendingOf log) live :=
  (h.pending.mono (fun _ h => h) fun _ h => h.later hlater).trans hlive

/-- An accepted request, or none, behind what is left of the queue. -/
theorem enqueued {entry : QueueEntry} {now : Int} (csrDer : List UInt8) (result : EnqueueResult)
    (hentry : entry = .enqueued csrDer now result) (hnow : stop ≤ now)
    (hroom : (live ++ entry.accepted).length ≤ cfg.maxQueueSize) :
    Tracked cfg (log ++ [entry]) ⟨live ++ entry.accepted, now⟩ where
  bounded := hroom
  pending := by
    rw [pendingOf_concat, hentry]
    refine Sifted.append ?_ fun _ _ => trivial
    exact (h.left hlater hlive).mono (fun _ _ => trivial) fun _ h => h.later hnow
  once := by
    have hsub := hlive.sublist.append_left (log.flatMap QueueEntry.returned)
    have hreturned : entry.returned = [] := by
      rw [hentry]
      rfl
    rw [List.flatMap_append, List.flatMap_append, List.flatMap_singleton, List.flatMap_singleton,
      hreturned, List.append_nil, ← List.append_assoc]
    exact (hsub.trans h.once).append_right _
  drains := by
    refine h.drains.concat fun start stop live heq => ?_
    cases hentry.symm.trans heq

end

theorem drained (h : Tracked cfg log s) (hlater : s.now ≤ stop)
    (hlive : Sifted (Live cfg.ttl s.now) (Expired cfg.ttl stop) s.queue live) :
    Tracked cfg (log ++ [.drained s.now stop live]) ⟨[], stop⟩ where
  bounded := Nat.zero_le _
  pending := by
    rw [pendingOf_concat]
    exact .nil
  once := by
    have hsub := hlive.sublist.append_left (log.flatMap QueueEntry.returned)
    rw [List.flatMap_append, List.flatMap_append, List.flatMap_singleton, List.flatMap_singleton,
      QueueEntry.returned, QueueEntry.accepted, List.append_nil, List.append_nil]
    exact hsub.trans h.once
  drains := by
    refine h.drains.concat fun start stop' live' heq => ?_
    cases heq
    exact h.left hlater hlive

theorem step (h : Tracked cfg log s) (call : QueueCall) :
    Tracked cfg (log ++ ((retryQueue cfg).step s call).2) ((retryQueue cfg).step s call).1 := by
  have hwait := h.wait call.wait
  obtain ⟨hlater, hlive⟩ := retainLive_sifted cfg.ttl call.pauses 0 (s.now + call.wait) s.queue
  have hlength := hlive.sublist.length_le.trans h.bounded
  cases hop : call.op with
  | drain =>
    simp only [retryQueue, hop, drainQueue]
    exact hwait.drained hlater hlive
  | enqueue csrDer =>
    simp only [retryQueue, hop, enqueueRequest]
    split
    · -- an oversized request is refused before the queue is looked at
      have hsame : Sifted (fun _ => True) (Expired cfg.ttl (s.now + call.wait)) s.queue s.queue :=
        Sifted.nil.append fun _ _ => trivial
      have hkept := hwait.enqueued (le_refl _) hsame csrDer (.queueFull cfg.maxQueueSize) rfl
        (le_refl _)
      rw [QueueEntry.accepted, List.append_nil] at hkept
      exact hkept h.bounded
    · split
      · have hfull := hwait.enqueued hlater hlive csrDer (.queueFull cfg.maxQueueSize) rfl (le_refl _)
        rw [QueueEntry.accepted, List.append_nil] at hfull
        exact hfull hlength
      · next hroom =>
        refine hwait.enqueued hlater hlive _ _ rfl (Int.le_add_of_nonneg_right (Int.natCast_nonneg _)) ?_
        rw [QueueEntry.accepted, List.length_append]
        exact Nat.succ_le_of_lt (Nat.lt_of_not_le hroom)

end Tracked

/-- Whatever the calls and the clock, the queue stays within its size; a drain returns, in order,
    the requests answered with `Queued` since the drain before it except for those that have reached
    the TTL; and so nothing is returned twice or out of order. -/
theorem retry_queue_exact (cfg : QueueConfig) (now : Int) (calls : List QueueCall) :
    ((retryQueue cfg).run ⟨[], now⟩ calls).1.queue.length ≤ cfg.maxQueueSize ∧
      Throughout (fun before entry => ∀ start stop live, entry = .drained start stop live →
        Sifted (Live cfg.ttl start) (Expired cfg.ttl stop) (pendingOf before) live)
        ((retryQueue cfg).run ⟨[], now⟩ calls).2 ∧
      (((retryQueue cfg).run ⟨[], now⟩ calls).2.flatMap QueueEntry.returned).Sublist
        (((retryQueue cfg).run ⟨[], now⟩ calls).2.flatMap QueueEntry.accepted) := by
  have hinitial : Tracked cfg [] ⟨[], now⟩ := ⟨Nat.zero_le _, .nil, .slnil, throughout_nil _⟩
  have htracked := (retryQueue cfg).run_invariant (I := Tracked cfg)
    (fun _ _ call h => h.step call) calls hinitial
  refine ⟨htracked.bounded, htracked.drains, ?_⟩
  exact (List.sublist_append_left _ _).trans htracked.once

namespace Sample

def queueConfig : QueueConfig := ⟨2, 60, 16⟩

/-- Two requests 40 seconds apart, a third one that finds the queue full, and a drain 30 seconds
    later, when the first has expired. -/
def queueCalls : List QueueCall :=
  [⟨0, fun _ => 0, .enqueue [1]⟩, ⟨fromSecs 40, fun _ => 0, .enqueue [2]⟩,
    ⟨0, fun _ => 0, .enqueue [3]⟩, ⟨fromSecs 30, fun _ => 0, .drain⟩]

def queueLog : List QueueEntry := ((retryQueue queueConfig).run ⟨[], 0⟩ queueCalls).2

end Sample

open Sample in
theorem retry_queue_exact_one_expired :
    queueLog.flatMap QueueEntry.accepted = [⟨[1], 0⟩, ⟨[2], fromSecs 40⟩] ∧
      queueLog.flatMap QueueEntry.returned = [⟨[2], fromSecs 40⟩] ∧
      (queueLog.flatMap QueueEntry.returned).Sublist (queueLog.flatMap QueueEntry.accepted) :=
  ⟨by decide +kernel, by decide +kernel, (retry_queue_exact queueConfig 0 queueCalls).2.2⟩

end Kipuka.Ha
