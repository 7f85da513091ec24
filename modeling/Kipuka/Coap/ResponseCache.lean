/-
  Later blocks of a response against the block 0 that the client has, over every run of the server.
  The cache has one body for a peer, token, path and code. The condition is on the state before each
  datagram: a new body finds room, and an old block 0 is not repeated behind a newer one.
-/
import Kipuka.Coap.Run

namespace Kipuka.Coap

open Generic Server

/-! ## First blocks in the log -/

/-- The body of which the reply, if it went out, was block 0 for the key. -/
def Reply.firstBlock (key : TransferKey) (reply : Reply) (sent : Bool) : Option (List UInt8) :=
  match reply.content with
  | .firstBlock key' body => if sent = true ∧ key' = key then some body else none
  | _ => none

def Event.firstBlock (key : TransferKey) : Event → Option (List UInt8)
  | .replied reply sent => reply.firstBlock key sent
  | .replayed reply sent => reply.firstBlock key sent
  | _ => none

def Entry.firstBlocks (key : TransferKey) : Entry → List (List UInt8)
  | .handled h => h.events.filterMap (Event.firstBlock key)
  | _ => []

def firstBlocks (key : TransferKey) (log : List Entry) : List (List UInt8) :=
  log.flatMap (Entry.firstBlocks key)

def lastFirstBlock (key : TransferKey) (log : List Entry) : Option (List UInt8) :=
  (firstBlocks key log).getLast?

theorem Reply.firstBlock_eq_some {key : TransferKey} {reply : Reply} {sent : Bool}
    {body : List UInt8} : reply.firstBlock key sent = some body ↔
      reply.content = .firstBlock key body ∧ sent = true := by
  unfold Reply.firstBlock
  split
  · next key' body' hcontent =>
    rw [Option.ite_none_right_eq_some, hcontent, Content.firstBlock.injEq]
    constructor
    · rintro ⟨⟨hsent, hkey⟩, hbody⟩
      exact ⟨⟨hkey, Option.some.inj hbody⟩, hsent⟩
    · rintro ⟨⟨hkey, hbody⟩, hsent⟩
      exact ⟨⟨hsent, hkey⟩, congrArg some hbody⟩
  · next hother =>
    refine ⟨nofun, fun h => ?_⟩
    exact absurd h.1 (hother key body)

theorem lastFirstBlock_append (key : TransferKey) (log more : List Entry) :
    lastFirstBlock key (log ++ more) = (lastFirstBlock key more).or (lastFirstBlock key log) := by
  unfold lastFirstBlock firstBlocks
  rw [List.flatMap_append, List.getLast?_append]

theorem lastFirstBlock_append_of_nil {key : TransferKey} {more : List Entry}
    (h : firstBlocks key more = []) (log : List Entry) :
    lastFirstBlock key (log ++ more) = lastFirstBlock key log := by
  rw [lastFirstBlock_append, lastFirstBlock, h]
  rfl

def Event.answer : Event → Option (Reply × Bool)
  | .replied reply sent => some (reply, sent)
  | .replayed reply sent => some (reply, sent)
  | _ => none

variable {answer : Option (Reply × Bool)}

theorem lastFirstBlock_handled (key : TransferKey) (h : Handled)
    (hanswer : h.events.filterMap Event.answer = answer.toList) :
    lastFirstBlock key [.handled h] = answer.bind fun p => p.1.firstBlock key p.2 := by
  have hevents : h.events.filterMap (Event.firstBlock key) =
      (h.events.filterMap Event.answer).filterMap fun p => p.1.firstBlock key p.2 := by
    rw [List.filterMap_filterMap]
    refine List.filterMap_congr fun e _ => ?_
    cases e <;> rfl
  unfold lastFirstBlock firstBlocks
  rw [List.flatMap_singleton, Entry.firstBlocks, hevents, hanswer]
  cases answer with
  | none => rfl
  | some p =>
    rw [Option.toList_some, List.filterMap_cons, Option.bind_some]
    cases p.1.firstBlock key p.2 <;> rfl

theorem filterMap_answer_replies {events : List Event}
    (hno : ∀ reply sent, Event.replayed reply sent ∉ events) :
    events.filterMap Event.answer = replies events := by
  refine List.filterMap_congr fun e he => ?_
  cases e with
  | accepted | called | replied => rfl
  | replayed reply sent => exact absurd he (hno reply sent)

/-! ## Steps that keep the cache in step -/

namespace Handled

def Repeats (h : Handled) (reply : Reply) : Prop :=
  ∃ m ex, CoapMessage.parse h.data = .ok m ∧
    (h.before.pruned h.env).exchanges.lookup (h.peer, m.messageId) = some ex ∧
    ex.request = h.data ∧ ex.response = some reply

/-- The reply is among the answers to the datagram. -/
def AnsweredWith (h : Handled) (reply : Reply) : Prop :=
  ∃ sent, (reply, sent) ∈ h.events.filterMap Event.answer

/-- What the cache and the stored responses have to be like when a message arrives. -/
structure CacheSafe (cfg : Config) (before : List Entry) (h : Handled) : Prop where
  /-- When a new request may be answered with several blocks, the cache has room or nothing under
      its key. -/
  room : ∀ m, CoapMessage.parse h.data = .ok m →
    (h.before.pruned h.env).exchanges.lookup (h.peer, m.messageId) = none → ¬ m.Continues →
    (∃ call response, h.env.handle call = .ok (.ok response) ∧
      response.payload.length > blockSizeFromSzx cfg.blockSzx) →
    (h.before.reaped h.env).responseCache.size < cfg.maxBlockAssemblers ∨
      (h.before.reaped h.env).responseCache.lookup (transferKey h.peer m) = none
  /-- When a stored block 0 is sent again, no other response is cached under its key. -/
  first : ∀ reply key body c, h.Repeats reply → reply.content = .firstBlock key body →
    (h.before.reaped h.env).responseCache.lookup key = some c → c.disasm.payload = body
  /-- When a stored later block is sent again, no block 0 was sent for its key since it was made. -/
  later : ∀ reply key body num, h.Repeats reply → reply.content = .nextBlock key body num →
    ∃ earlier h' since sent, before = earlier ++ .handled h' :: since ∧
      (reply, sent) ∈ replies h'.events ∧ firstBlocks key (.handled h' :: since) = []

end Handled

/-! ## Replies are what they are labelled as -/

/-- The reply can be an answer of the server to the message in `data`: a reply that is labelled as
    a block has the bytes of that block, and a request for a later block gets one or an error. -/
def Reply.Fits (peer : SocketAddr) (data : List UInt8) (reply : Reply) : Prop :=
  match reply.content with
  | .plain => ∀ m, CoapMessage.parse data = .ok m → m.Continues → IsError reply.bytes
  | .proceed => ∀ m, CoapMessage.parse data = .ok m → ¬ m.Continues
  | .firstBlock key body => BlockOf body 0 reply.bytes ∧
    ∀ m, CoapMessage.parse data = .ok m → key = transferKey peer m ∧ ¬ m.Continues
  | .nextBlock key body num => BlockOf body num reply.bytes ∧
    ∀ m, CoapMessage.parse data = .ok m →
      key = transferKey peer m ∧ ∃ block, m.block2 = some block ∧ block.num = num

namespace Server

/-- Stored replies fit the request they are stored for, and the replies of a run what they
    answered. -/
structure Fitting (log : List Entry) (s : Server) : Prop where
  stored : AList.All (fun k ex => ∀ reply, ex.response = some reply →
    reply.Fits k.1 ex.request) s.exchanges
  answered : ∀ h, .handled h ∈ log → ∀ reply, h.AnsweredWith reply → reply.Fits h.peer h.data

section

variable {cfg : Config} {log : List Entry} {s : Server} {env : Env} {data : List UInt8}
  {peer : SocketAddr} {m : CoapMessage} {r : Step}

theorem Replied.fits {cache : Table TransferKey CachedResponse} {reply : Reply} {sent : Bool}
    (h : s.Replied cfg env peer m cache reply sent) (hparse : CoapMessage.parse data = .ok m) :
    reply.Fits peer data := by
  have hm : ∀ m', CoapMessage.parse data = .ok m' → m' = m :=
    fun m' hparse' => (Outcome.ok.inj (hparse.symm.trans hparse')).symm
  obtain ⟨content, bytes⟩ := reply
  cases content with
  | plain =>
    intro m' hparse' hcontinues
    obtain herror | ⟨response, ⟨call, hcalled, -⟩, -⟩ := h
    · exact herror
    · exact absurd (hm m' hparse' ▸ hcontinues) hcalled.1.1
  | proceed =>
    intro m' hparse'
    rw [hm m' hparse']
    exact h.1.1
  | firstBlock key body =>
    obtain ⟨hkey, hblock, ⟨response, ⟨call, hcalled, -⟩, -⟩, -⟩ := h
    refine ⟨hblock, fun m' hparse' => ?_⟩
    rw [hm m' hparse']
    exact ⟨hkey, hcalled.1.1⟩
  | nextBlock key body num =>
    obtain ⟨hkey, hnum, hblock, -⟩ := h
    refine ⟨hblock, fun m' hparse' => ?_⟩
    rw [hm m' hparse']
    exact ⟨hkey, hnum⟩

theorem IsError.code {bytes : List UInt8} (h : IsError bytes) :
    ∃ code, bytes[1]? = some code ∧ 0x80 ≤ code := by
  obtain ⟨m, error, rfl⟩ := h
  refine ⟨(errorCode error).toByte, rfl, ?_⟩
  cases error <;> simp only [errorCode] <;> decide

theorem BlockOf.last {body bytes : List UInt8} {num : UInt32} (h : BlockOf body num bytes) :
    ∃ byte ∈ body, bytes.getLast? = some byte := by
  obtain ⟨m, code, format, szx, hlt, rfl⟩ := h
  have hne : (body.drop (num.toNat * blockSizeFromSzx szx)).take (blockSizeFromSzx szx) ≠ [] := by
    rw [← List.length_pos_iff, List.length_take, List.length_drop]
    have hpos := blockSizeFromSzx_pos szx
    omega
  obtain ⟨byte, hlast⟩ := Option.ne_none_iff_exists'.mp (mt List.getLast?_eq_none_iff.mp hne)
  refine ⟨byte, List.mem_of_mem_drop (List.mem_of_mem_take (List.mem_of_getLast? hlast)), ?_⟩
  rw [CoapMessage.encode, acknowledge]
  dsimp only
  rw [if_neg (by rwa [List.isEmpty_iff]), List.getLast?_append, List.getLast?_cons, hlast]
  rfl

theorem IsError.fits {bytes : List UInt8} (h : IsError bytes) (peer : SocketAddr)
    (data : List UInt8) : Reply.Fits peer data ⟨.plain, bytes⟩ :=
  fun _ _ _ => h

/-- Storing the reply of a message, under its message id, keeps the stored replies fitting. -/
theorem Fitting.store (replied : List (Reply × Bool)) {id : SocketAddr × UInt16}
    {exchanges : Table (SocketAddr × UInt16) Exchange}
    (h : AList.All (fun k ex => ∀ reply, ex.response = some reply → reply.Fits k.1 ex.request)
      s.exchanges)
    (hfits : ∀ ex, s.exchanges.lookup id = some ex → ∀ p ∈ replied, p.1.Fits id.1 ex.request)
    (heq : ∀ k, exchanges.lookup k = (s.exchanges.lookup k).map fun ex =>
      if k = id then ex.answered replied else ex) :
    AList.All (fun k ex => ∀ reply, ex.response = some reply → reply.Fits k.1 ex.request)
      exchanges := by
  intro k ex hex reply hreply
  rw [heq, Option.map_eq_some_iff] at hex
  obtain ⟨ex', hex', rfl⟩ := hex
  by_cases hk : k = id
  · subst hk
    rw [if_pos rfl] at hreply ⊢
    cases replied with
    | nil => exact h k ex' hex' reply hreply
    | cons p more =>
      rw [← Option.some.inj hreply]
      exact hfits ex' hex' p (List.mem_cons_self ..)
  · rw [if_neg hk] at hreply ⊢
    exact h k ex' hex' reply hreply

theorem Fitting.step (h : Fitting log s) (hhandling : Handling cfg s env data peer r) :
    AList.All (fun k ex => ∀ reply, ex.response = some reply → reply.Fits k.1 ex.request)
        r.server.exchanges ∧
      ∀ p ∈ r.events.filterMap Event.answer, p.1.Fits peer data := by
  have hpruned := h.stored.retain fun _ ex =>
    decide (durationSince env.clock.prune ex.time < Config.exchangeLifetime)
  cases hhandling with
  | ignored => exact ⟨h.stored, by simp⟩
  | unanswered => exact ⟨hpruned, by simp⟩
  | @oversized m hparse hlarge =>
    have herror := isError_buildErrorResponse m (.payloadTooLarge m.payload.length cfg.maxPayload)
    refine ⟨Fitting.store [(_, true)] h.stored (fun ex _ p hp => ?_)
      (storeResponse_lookup _ _ _ _), fun p hp => ?_⟩
    · rw [List.mem_singleton.mp hp]
      exact herror.fits _ _
    · rw [List.mem_singleton.mp hp]
      exact herror.fits _ _
  | @replayed m ex reply hparse hex hrequest hresponse =>
    refine ⟨hpruned, fun p hp => ?_⟩
    rw [List.mem_singleton.mp hp, ← hrequest]
    exact hpruned _ ex hex reply hresponse
  | @accepted m r hparse hanswerable hsize hnew hroom heffect =>
    have hfits : ∀ p ∈ replies r.events, p.1.Fits peer data :=
      fun p hp => Replied.fits (heffect.replied p hp) hparse
    refine ⟨Fitting.store _ (hpruned.insert (by simp)) (fun ex hex p hp => ?_) heffect.exchanges,
      fun p hp => ?_⟩
    · have hrecorded : ex = ⟨data, none, env.clock.accept⟩ :=
        (Option.some.inj ((AList.lookup_insert _).symm.trans hex)).symm
      rw [hrecorded]
      exact hfits p hp
    · have hanswers : (Event.accepted :: r.events).filterMap Event.answer = replies r.events := by
        rw [List.filterMap_cons_none rfl, filterMap_answer_replies heffect.noReplay]
      exact hfits p (hanswers ▸ hp)

theorem Fitting.unhandled (h : Fitting log s) {e : Entry} (he : handledOf e = none) {s' : Server}
    (hstored : ∀ k ex, s'.exchanges.lookup k = some ex → s.exchanges.lookup k = some ex) :
    Fitting (log ++ [e]) s' := by
  refine ⟨fun k ex hex => h.stored k ex (hstored k ex hex), fun h' hmem => ?_⟩
  obtain hold | hnew := List.mem_append.mp hmem
  · exact h.answered h' hold
  · rw [← List.mem_singleton.mp hnew] at he
    exact nomatch he

theorem Fitting.preserved (cfg : Config) : Preserved cfg Fitting where
  bind := ⟨AList.all_empty _, by simp⟩
  drop := fun _ _ _ h _ => ⟨h.stored, h.answered⟩
  purge := fun _ _ _ h _ => ⟨h.stored.retain _, h.answered⟩
  connect := fun _ _ _ _ h _ => h.unhandled rfl fun _ _ hex => (AList.lookup_of_retain hex).1
  establish := fun _ _ _ _ _ h _ _ => h.unhandled rfl fun _ _ hex => hex
  handle := fun log s peer conn data env h _ _ => by
    obtain ⟨hstored, hanswers⟩ := h.step (processDatagram_handling cfg s env data peer)
    refine ⟨hstored, fun h' hmem => ?_⟩
    obtain hold | hnew := List.mem_append.mp hmem
    · exact h.answered h' hold
    · obtain rfl := Entry.handled.inj (List.mem_singleton.mp hnew)
      rintro reply ⟨sent, hanswer⟩
      exact hanswers _ hanswer

end

end Server

/-! ## Later blocks -/

def FromLastFirstBlock (before : List Entry) (e : Entry) : Prop :=
  ∀ h, e = .handled h → ∀ reply key body num, h.AnsweredWith reply →
    reply.content = .nextBlock key body num → lastFirstBlock key before = some body

def EntrySafe (cfg : Config) (before : List Entry) (e : Entry) : Prop :=
  ∀ h, e = .handled h → h.CacheSafe cfg before

namespace Server

def InStep (log : List Entry) (s : Server) : Prop :=
  AList.All (fun key c => lastFirstBlock key log = some c.disasm.payload) s.responseCache

structure CacheInvariant (log : List Entry) (s : Server) : Prop where
  inStep : InStep log s
  entries : Throughout FromLastFirstBlock log

section

variable {cfg : Config} {log : List Entry} {s : Server} {env : Env} {data : List UInt8}
  {peer : SocketAddr} {conn : Nat}

theorem InStep.reaped (h : InStep log s) (env : Env) : InStep log (s.reaped env) :=
  AList.All.retain h _

variable {e : Handled} {s' : Server}

/-- A message with at most one reply keeps the cache in step if what is cached under the key of a
    block 0 it sends has the body of that block, and the rest was cached before. -/
theorem InStep.answered (h : InStep log s)
    (hanswer : e.events.filterMap Event.answer = answer.toList)
    (hcache : ∀ key c, s'.responseCache.lookup key = some c →
      (∃ reply, answer = some (reply, true) ∧ reply.content = .firstBlock key c.disasm.payload) ∨
        (∀ reply body, answer = some (reply, true) → reply.content ≠ .firstBlock key body) ∧
          ∃ c', s.responseCache.lookup key = some c' ∧ c'.disasm = c.disasm) :
    InStep (log ++ [.handled e]) s' := by
  intro key c hc
  show lastFirstBlock key _ = some c.disasm.payload
  rw [lastFirstBlock_append, lastFirstBlock_handled key e hanswer]
  obtain ⟨reply, rfl, hcontent⟩ | ⟨hother, c', hc', hsame⟩ := hcache key c hc
  · rw [Option.bind_some, Reply.firstBlock_eq_some.mpr ⟨hcontent, rfl⟩]
    rfl
  · have hnone : (answer.bind fun p => p.1.firstBlock key p.2) = none := by
      refine Option.eq_none_iff_forall_ne_some.mpr fun body hbody => ?_
      obtain ⟨⟨reply, sent⟩, rfl, hblock⟩ := Option.bind_eq_some_iff.mp hbody
      obtain ⟨hcontent, rfl⟩ := Reply.firstBlock_eq_some.mp hblock
      exact hother reply body rfl hcontent
    rw [hnone, ← hsame]
    exact h key c' hc'

theorem CacheInvariant.repeats (h : CacheInvariant log s) (hs : e.before = s)
    (hsafe : e.CacheSafe cfg log) {reply : Reply} {sent : Bool}
    (hevents : e.events = [.replayed reply sent]) (hrepeats : e.Repeats reply) :
    InStep (log ++ [.handled e]) (s.pruned e.env) ∧ FromLastFirstBlock log (.handled e) := by
  have hanswer : e.events.filterMap Event.answer = (some (reply, sent)).toList := by
    rw [hevents]
    rfl
  constructor
  · refine (h.inStep.reaped e.env).answered hanswer fun key c hc => ?_
    by_cases hblock : ∃ body, reply.content = .firstBlock key body ∧ sent = true
    · obtain ⟨body, hcontent, rfl⟩ := hblock
      have hsame := hsafe.first reply key body c hrepeats hcontent (hs ▸ hc)
      exact .inl ⟨reply, rfl, hsame ▸ hcontent⟩
    · refine .inr ⟨fun reply' body heq hcontent => hblock ⟨body, ?_⟩, c, hc, rfl⟩
      obtain ⟨rfl, rfl⟩ := Prod.mk.inj (Option.some.inj heq)
      exact ⟨hcontent, rfl⟩
  · intro e' heq reply' key body num hanswered hcontent
    obtain rfl := Entry.handled.inj heq
    obtain ⟨sent', hmem⟩ := hanswered
    rw [hanswer, Option.toList_some, List.mem_singleton] at hmem
    obtain ⟨rfl, rfl⟩ := Prod.mk.inj hmem
    obtain ⟨earlier, h', since, sent, hlog, hreply, hnone⟩ :=
      hsafe.later reply' key body num hrepeats hcontent
    rw [hlog, lastFirstBlock_append_of_nil hnone]
    refine h.entries earlier (.handled h') since hlog h' rfl reply' key body num ⟨sent, ?_⟩ hcontent
    obtain ⟨event, hmem, hevent⟩ := List.mem_filterMap.mp hreply
    refine List.mem_filterMap.mpr ⟨event, hmem, ?_⟩
    cases event with
    | replied reply sent => exact hevent
    | accepted | called | replayed => exact nomatch hevent

theorem CacheInvariant.serves (h : InStep log s) {m : CoapMessage} {r : Step}
    (heffect : s.Effect cfg e.env e.peer m r)
    (hevents : e.events.filterMap Event.answer = replies r.events)
    (hroom : ¬ m.Continues → (∃ call response, e.env.handle call = .ok (.ok response) ∧
        response.payload.length > blockSizeFromSzx cfg.blockSzx) →
      s.responseCache.size < cfg.maxBlockAssemblers ∨
        s.responseCache.lookup (transferKey e.peer m) = none) :
    InStep (log ++ [.handled e]) r.server ∧ FromLastFirstBlock log (.handled e) := by
  constructor
  · have hone : replies r.events = (replies r.events).head?.toList := by
      match replies r.events, heffect.reply_le_one with
      | [], _ => rfl
      | [p], _ => rfl
    refine h.answered (hevents.trans hone) fun key c hc => ?_
    by_cases hblock : ∃ reply body, (replies r.events).head? = some (reply, true) ∧
        reply.content = .firstBlock key body
    · obtain ⟨reply, body, hhead, hcontent⟩ := hblock
      have hreplied := heffect.replied _ (List.mem_of_head? hhead)
      rw [Replied, hcontent] at hreplied
      obtain ⟨rfl, -, ⟨response, ⟨call, hcalled, hhandle⟩, rfl, hlong⟩, hcached⟩ := hreplied
      obtain hsame | ⟨hold, hfull⟩ := hcached rfl c hc
      · exact .inl ⟨reply, hhead, hsame ▸ hcontent⟩
      · -- the old response is still there, which the condition rules out
        obtain hroom | hnone := hroom hcalled.1.1 ⟨call, response, hhandle, hlong⟩
        · exact absurd hfull (Nat.not_le.mpr hroom)
        · exact nomatch hnone.symm.trans hold
    · refine .inr ⟨fun reply body hhead hcontent => hblock ⟨reply, body, hhead, hcontent⟩, ?_⟩
      obtain hold | ⟨rfl, htouched | ⟨bytes, hmem⟩⟩ := heffect.cache key c hc
      · exact ⟨c, hold, rfl⟩
      · exact htouched
      · rw [hone, Option.mem_toList] at hmem
        exact absurd ⟨_, _, hmem, rfl⟩ hblock
  · intro e' heq reply key body num hanswered hcontent
    obtain rfl := Entry.handled.inj heq
    obtain ⟨sent, hmem⟩ := hanswered
    rw [hevents] at hmem
    have hreplied := heffect.replied _ hmem
    rw [Replied, hcontent] at hreplied
    obtain ⟨-, -, -, c, hc, rfl⟩ := hreplied
    exact h key c hc

theorem CacheInvariant.plain (h : InStep log s)
    (hanswer : e.events.filterMap Event.answer = answer.toList)
    (hplain : ∀ p, answer = some p → p.1.content = .plain)
    (hcache : s'.responseCache = s.responseCache) :
    InStep (log ++ [.handled e]) s' ∧ FromLastFirstBlock log (.handled e) := by
  constructor
  · refine h.answered hanswer fun key c hc => .inr ⟨fun reply body heq hcontent => ?_, c, ?_, rfl⟩
    · exact nomatch hcontent.symm.trans (hplain _ heq)
    · rw [← hcache]
      exact hc
  · intro e' heq reply key body num hanswered hcontent
    obtain rfl := Entry.handled.inj heq
    obtain ⟨sent, hmem⟩ := hanswered
    rw [hanswer, Option.mem_toList] at hmem
    exact nomatch hcontent.symm.trans (hplain _ hmem)

theorem CacheInvariant.handle (h : CacheInvariant log s) {r : Step}
    (hhandling : Handling cfg s env data peer r)
    (hsafe : (⟨conn, peer, data, env, s, r.events⟩ : Handled).CacheSafe cfg log) :
    InStep (log ++ [.handled ⟨conn, peer, data, env, s, r.events⟩]) r.server ∧
      FromLastFirstBlock log (.handled ⟨conn, peer, data, env, s, r.events⟩) := by
  have hreaped := h.inStep.reaped env
  have hquiet : ([] : List Event).filterMap Event.answer =
    (none : Option (Reply × Bool)).toList := rfl
  have hnone : ∀ p : Reply × Bool, none = some p → p.1.content = .plain := nofun
  cases hhandling with
  | ignored | unanswered => exact CacheInvariant.plain hreaped hquiet hnone rfl
  | @oversized m hparse hlarge =>
    obtain ⟨p, hanswer, hplain⟩ : ∃ p, ((s.reaped env).sendError env peer m
        (.payloadTooLarge m.payload.length cfg.maxPayload)).events.filterMap Event.answer =
          (some p).toList ∧ p.1.content = .plain := ⟨(⟨_, _⟩, _), rfl, rfl⟩
    refine CacheInvariant.plain hreaped hanswer (fun p' heq => ?_) (storeResponse_responseCache ..)
    rw [← Option.some.inj heq]
    exact hplain
  | @replayed m ex reply hparse hex hrequest hresponse =>
    exact h.repeats rfl hsafe rfl ⟨m, ex, hparse, hex, hrequest, hresponse⟩
  | @accepted m r hparse hanswerable hsize hnew hroom heffect =>
    have hrecorded : InStep log ((s.pruned env).recordExchange peer m.messageId data
      env.clock.accept) := hreaped
    have hanswers : (Event.accepted :: r.events).filterMap Event.answer = replies r.events := by
      rw [List.filterMap_cons_none rfl, filterMap_answer_replies heffect.noReplay]
    have hserved : InStep (log ++ [.handled ⟨conn, peer, data, env, s, .accepted :: r.events⟩])
        r.server ∧ _ := CacheInvariant.serves hrecorded heffect hanswers (hsafe.room m hparse hnew)
    exact hserved

def SafeSoFar (cfg : Config) (log : List Entry) (s : Server) : Prop :=
  Throughout (EntrySafe cfg) log → CacheInvariant log s

theorem SafeSoFar.unhandled (h : SafeSoFar cfg log s) {e : Entry} (he : handledOf e = none)
    (hcache : ∀ key c, s'.responseCache.lookup key = some c →
      s.responseCache.lookup key = some c) : SafeSoFar cfg (log ++ [e]) s' := by
  intro hsafe
  have hinv := h fun before e' after hlog =>
    hsafe before e' (after ++ [e]) (by rw [hlog, List.append_assoc, List.cons_append])
  have hno : ∀ h, e ≠ .handled h := by
    rintro h rfl
    exact nomatch he
  have hblocks : ∀ key, firstBlocks key [e] = [] := by
    intro key
    cases e with
    | opened | established => rfl
    | handled h => exact nomatch he
  refine ⟨fun key c hc => ?_, hinv.entries.concat fun h heq => absurd heq (hno h)⟩
  show lastFirstBlock key (log ++ [e]) = some c.disasm.payload
  rw [lastFirstBlock_append_of_nil (hblocks key)]
  exact hinv.inStep key c (hcache key c hc)

theorem SafeSoFar.preserved (cfg : Config) : Preserved cfg (SafeSoFar cfg) where
  bind := fun _ => ⟨AList.all_empty _, throughout_nil _⟩
  drop := fun _ _ _ h _ hsafe => ⟨(h hsafe).inStep, (h hsafe).entries⟩
  purge := fun _ _ _ h _ hsafe => ⟨AList.All.retain (h hsafe).inStep _, (h hsafe).entries⟩
  connect := fun _ _ _ _ h _ => h.unhandled rfl fun _ _ hc => (AList.lookup_of_retain hc).1
  establish := fun _ _ _ _ _ h _ _ => h.unhandled rfl fun _ _ hc => hc
  handle := fun log s peer conn data env h _ _ hsafe => by
    have hinv := h fun before e after hlog =>
      hsafe before e (after ++ [_]) (by rw [hlog, List.append_assoc, List.cons_append])
    obtain ⟨hstep, hentry⟩ := hinv.handle (processDatagram_handling cfg s env data peer)
      (hsafe log _ [] rfl _ rfl)
    exact ⟨hstep, hinv.entries.concat hentry⟩

end

/-- In every run in which the cache has room for, or nothing under the key of, every new response of
    several blocks, and no stored block is sent again behind the block 0 of another response: a
    request for a later block that is not answered with an error gets the bytes of the block it asks
    for, of the body whose block 0 was sent last for the key. What was sent as block 0 of that body
    had the bytes of it. -/
theorem continuation_from_last_first_block (cfg : Config) (inputs : List Input)
    (hsafe : ∀ before h after, log cfg inputs = before ++ .handled h :: after →
      h.CacheSafe cfg before)
    (before after : List Entry) (h : Handled)
    (hlog : log cfg inputs = before ++ .handled h :: after)
    (m : CoapMessage) (hparse : CoapMessage.parse h.data = .ok m) (block : BlockOption)
    (hblock2 : m.block2 = some block) (hlater : block.num > 0)
    (reply : Reply) (hreply : h.AnsweredWith reply) (herror : ¬ IsError reply.bytes) :
    ∃ body, lastFirstBlock (transferKey h.peer m) before = some body ∧
      BlockOf body block.num reply.bytes ∧
      ∀ e first, .handled e ∈ before → e.AnsweredWith first →
        first.content = .firstBlock (transferKey h.peer m) body → BlockOf body 0 first.bytes := by
  have hinv := (SafeSoFar.preserved cfg).run inputs fun before e after hlog h heq =>
    hsafe before h after (heq ▸ hlog)
  have hfitting := (Fitting.preserved cfg).run inputs
  have hmem : .handled h ∈ log cfg inputs := by
    rw [hlog]
    exact List.mem_append_right _ (List.mem_cons_self ..)
  have hcontinues : m.Continues := ⟨block, hblock2, hlater⟩
  have hfits := hfitting.answered h hmem reply hreply
  unfold Reply.Fits at hfits
  split at hfits
  · exact absurd (hfits m hparse hcontinues) herror
  · exact absurd hcontinues (hfits m hparse)
  · exact absurd hcontinues (hfits.2 m hparse).2
  · next key body num hcontent =>
    obtain ⟨rfl, block', hblock', rfl⟩ := hfits.2 m hparse
    obtain rfl := Option.some.inj (hblock2.symm.trans hblock')
    refine ⟨body, ?_, hfits.1, fun e first he hfirst hzero => ?_⟩
    · exact hinv.entries before (.handled h) after hlog h rfl reply _ body _ hreply hcontent
    · have hbefore : .handled e ∈ log cfg inputs := by
        rw [hlog]
        exact List.mem_append_left _ he
      have hother := hfitting.answered e hbefore first hfirst
      rw [Reply.Fits, hzero] at hother
      exact hother.1

/-! ## Two responses for one key, with and without room in the cache -/

namespace Sample

def crtsKey : TransferKey := ⟨peer, [0xA1], "/crts", 0x01⟩

def oldCerts : List UInt8 := List.replicate 40 0x01

def newCerts : List UInt8 := List.replicate 40 0x02

def twoRequests : List Input :=
  [arrival (answering 0 oldCerts) (get 1 0xA1 []),
    arrival (answering 1 oldCerts) (get 2 0xA1 (block2 0x10))]

/-- The cache has room for two responses. It holds one for the key and one for another token when
    the key gets a new response; then the next block is asked for. -/
def fullCache : List Input :=
  [arrival (answering 0 oldCerts) (get 1 0xA1 []), arrival (answering 1 oldCerts) (get 2 0xA2 []),
    arrival (answering 2 newCerts) (get 3 0xA1 []),
    arrival (answering 3 newCerts) (get 4 0xA1 (block2 0x10))]

def isNew (h : Handled) : Bool :=
  match CoapMessage.parse h.data with
  | .ok m => ((h.before.pruned h.env).exchanges.lookup (h.peer, m.messageId)).isNone
  | _ => true

def contents (h : Handled) : List Content :=
  (h.events.filterMap Event.answer).map fun p => p.1.content

/-- The second byte of a message is its code. -/
def codes (h : Handled) : List (Option UInt8) :=
  (h.events.filterMap Event.answer).map fun p => p.1.bytes[1]?

/-- A request for block 1 of the response with token A1. -/
def nextRequest (messageId : UInt8) : CoapMessage where
  version := 1
  msgType := .confirmable
  code := ⟨0, 1⟩
  messageId := messageId.toUInt16
  token := [0xA1]
  options := [⟨11, [0x63, 0x72, 0x74, 0x73]⟩, ⟨23, [0x10]⟩]
  payload := []

theorem oldBlock_answer (inputs : List Input) (i : Nat) (messageId : UInt8)
    (hat : (handledAt (log config inputs) i).map (fun h => (h.peer, h.data, contents h, codes h)) =
      some (peer, get messageId 0xA1 (block2 0x10), [.nextBlock crtsKey oldCerts 1], [some 0x45]))
    (hparse : CoapMessage.parse (get messageId 0xA1 (block2 0x10)) = .ok (nextRequest messageId)) :
    ∃ h reply, handledAt (log config inputs) i = some h ∧ h.peer = peer ∧
      CoapMessage.parse h.data = .ok (nextRequest messageId) ∧ h.AnsweredWith reply ∧
      ¬ IsError reply.bytes ∧ BlockOf oldCerts 1 reply.bytes := by
  obtain ⟨h, hat, hfacts⟩ := Option.map_eq_some_iff.mp hat
  simp only [Prod.mk.injEq] at hfacts
  obtain ⟨hpeer, hdata, hcontents, hcodes⟩ := hfacts
  obtain ⟨⟨reply, sent⟩, hanswer, hcontent⟩ :=
    List.mem_map.mp (hcontents ▸ List.mem_singleton_self (Content.nextBlock crtsKey oldCerts 1))
  have hcode : reply.bytes[1]? = some 0x45 := by
    have hmem : reply.bytes[1]? ∈ codes h := List.mem_map.mpr ⟨_, hanswer, rfl⟩
    rw [hcodes, List.mem_singleton] at hmem
    exact hmem
  have hhandled : .handled h ∈ log config inputs := by
    rw [log_split hat]
    exact List.mem_append_cons_self
  have hfits := ((Fitting.preserved config).run inputs).answered h hhandled reply ⟨sent, hanswer⟩
  rw [Reply.Fits, hcontent] at hfits
  refine ⟨h, reply, hat, hpeer, hdata ▸ hparse, ⟨sent, hanswer⟩, fun herror => ?_, hfits.1⟩
  obtain ⟨code, hsome, hge⟩ := herror.code
  rw [hcode] at hsome
  rw [← Option.some.inj hsome] at hge
  exact absurd hge (by decide)

end Sample

open Sample in
theorem continuation_from_last_first_block_twoRequests :
    ∃ h reply, handledAt (log config twoRequests) 3 = some h ∧
      CoapMessage.parse h.data = .ok (nextRequest 2) ∧ h.AnsweredWith reply ∧
      ∃ body, lastFirstBlock (transferKey h.peer (nextRequest 2))
          ((log config twoRequests).take 3) = some body ∧ BlockOf body 1 reply.bytes := by
  -- the cache has room and the message ids are new
  have hnew : ((log config twoRequests).filterMap handledOf).all (fun h =>
      decide ((h.before.reaped h.env).responseCache.size < config.maxBlockAssemblers) &&
        isNew h) = true := by decide +kernel
  have hsafe : ∀ before e after, log config twoRequests = before ++ .handled e :: after →
      e.CacheSafe config before := by
    intro before e after hlog
    have hmem : e ∈ (log config twoRequests).filterMap handledOf := by
      rw [hlog]
      exact List.mem_filterMap.mpr
        ⟨.handled e, List.mem_append_right _ (List.mem_cons_self ..), rfl⟩
    have hfacts := List.all_eq_true.mp hnew e hmem
    rw [Bool.and_eq_true, decide_eq_true_iff] at hfacts
    have hno : ∀ reply, ¬ e.Repeats reply := by
      rintro reply ⟨m, ex, hparse, hex, -⟩
      have hnone := hfacts.2
      rw [isNew, hparse] at hnone
      dsimp only at hnone
      rw [hex] at hnone
      simp at hnone
    exact ⟨fun _ _ _ _ _ => .inl hfacts.1,
      fun reply _ _ _ hrepeats => absurd hrepeats (hno reply),
      fun reply _ _ _ hrepeats => absurd hrepeats (hno reply)⟩
  obtain ⟨h, reply, hat, -, hparse, hanswer, herror, -⟩ :=
    oldBlock_answer twoRequests 3 2 (by decide +kernel) (by decide +kernel)
  obtain ⟨body, hlast, hblock, -⟩ := continuation_from_last_first_block config twoRequests hsafe
    _ _ h (log_split hat) (nextRequest 2) hparse ⟨1, false, 0⟩ (by decide) (by decide) reply
    hanswer herror
  exact ⟨h, reply, hat, hparse, hanswer, body, hlast, hblock⟩

open Sample in
/-- The new response is not cached, and the next block comes from the old one: block 0 of `newCerts`
    was sent last, and the request for block 1 gets block 1 of `oldCerts`. -/
theorem full_cache_mixes_responses :
    ∃ h reply, handledAt (log config fullCache) 5 = some h ∧
      CoapMessage.parse h.data = .ok (nextRequest 4) ∧ h.AnsweredWith reply ∧
      ¬ IsError reply.bytes ∧
      lastFirstBlock (transferKey h.peer (nextRequest 4)) ((log config fullCache).take 5) =
        some newCerts ∧
      BlockOf oldCerts 1 reply.bytes ∧ ¬ BlockOf newCerts 1 reply.bytes := by
  obtain ⟨h, reply, hat, hpeer, hparse, hanswer, herror, hold⟩ :=
    oldBlock_answer fullCache 5 4 (by decide +kernel) (by decide +kernel)
  refine ⟨h, reply, hat, hparse, hanswer, herror, ?_, hold, fun hnew => ?_⟩
  · rw [hpeer]
    decide +kernel
  · obtain ⟨old, hmem, hlast⟩ := hold.last
    obtain ⟨new, hmem', hlast'⟩ := hnew.last
    rw [hlast, List.eq_of_mem_replicate hmem, List.eq_of_mem_replicate hmem'] at hlast'
    exact absurd hlast' (by decide)

end Server

end Kipuka.Coap
