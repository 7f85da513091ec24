/-
  What handling one message can do to the tables, and which calls and replies it can make.
-/
import Kipuka.Coap.Server

namespace Kipuka.Coap

open Generic

/-! ## Calls and replies among the events -/

def Event.call : Event → Option HandlerCall
  | .called call => some call
  | _ => none

def Event.reply : Event → Option (Reply × Bool)
  | .replied reply sent => some (reply, sent)
  | _ => none

def calls (events : List Event) : List HandlerCall := events.filterMap Event.call

def replies (events : List Event) : List (Reply × Bool) := events.filterMap Event.reply

@[simp] theorem calls_nil : calls [] = [] := rfl

@[simp] theorem replies_nil : replies [] = [] := rfl

def Exchange.answered (ex : Exchange) (sent : List (Reply × Bool)) : Exchange :=
  match sent with
  | [] => ex
  | (reply, _) :: _ => { ex with response := some reply }

def CoapMessage.Answerable (m : CoapMessage) : Prop :=
  m.msgType = .confirmable ∨ m.msgType = .nonConfirmable

/-- A request for a later block of a response. -/
def CoapMessage.Continues (m : CoapMessage) : Prop := ∃ block, m.block2 = some block ∧ block.num > 0

/-- A request that the router gives to an EST operation. -/
def CoapMessage.Operates (m : CoapMessage) : Prop :=
  ¬ m.Continues ∧ ∃ request, routeMessage m = .ok request

namespace Server

/-! ## What the bytes of a reply are -/

/-- The bytes of an error response. -/
def IsError (bytes : List UInt8) : Prop :=
  ∃ m error, bytes = (buildErrorResponse m error).encode

/-- The bytes are a message with block `num` of the body, cut at the size that its block option
    names. -/
def BlockOf (body : List UInt8) (num : UInt32) (bytes : List UInt8) : Prop :=
  ∃ m code format szx,
    num.toNat * blockSizeFromSzx szx < body.length ∧
    bytes = (acknowledge m code
      (blockOptions format
        ⟨num, decide ((num.toNat + 1) * blockSizeFromSzx szx < body.length), szx⟩ ⟨body, szx⟩)
      ((body.drop (num.toNat * blockSizeFromSzx szx)).take (blockSizeFromSzx szx))).encode

/-- The bytes are the whole response of the handler. -/
def IsResponse (response : EstResponse) (bytes : List UInt8) : Prop :=
  ∃ m code, bytes = (acknowledge m code
    [.fromUint optionContentFormat response.contentFormat.toUInt32] response.payload).encode

/-- The bytes are a 2.31 Continue, which has no payload. -/
def IsContinue (bytes : List UInt8) : Prop :=
  ∃ m options, bytes = (acknowledge m ⟨2, 31⟩ options []).encode

theorem isError_buildErrorResponse (m : CoapMessage) (error : CoapError) :
    IsError (buildErrorResponse m error).encode :=
  ⟨m, error, rfl⟩

theorem blockOf_getBlock {d : BlockDisassembler} {num : UInt32} {data : List UInt8}
    {block : BlockOption} (h : d.getBlock num = some (data, block)) (m : CoapMessage)
    (code : CoapCode) (format : UInt16) :
    BlockOf d.payload num (acknowledge m code (blockOptions format block d) data).encode := by
  have hlt : num.toNat * blockSizeFromSzx d.szx < d.payload.length := by
    rw [BlockDisassembler.getBlock] at h
    dsimp only at h
    split at h
    · exact nomatch h
    · next hlt => exact Nat.not_le.mp hlt
  have hblock := getBlock_of_lt d num.toNat num.toNat_lt hlt
  have hnum : num.toNat.toUInt32 = num := UInt32.ofNat_toNat
  rw [hnum, h] at hblock
  obtain ⟨rfl, rfl⟩ := Prod.mk.inj (Option.some.inj hblock)
  exact ⟨m, code, format, d.szx, hlt, rfl⟩

/-! ## Effects -/

def reaped (s : Server) (env : Env) : Server := s.reapStaleEntries env.clock.reap

def pruned (s : Server) (env : Env) : Server := (s.reaped env).pruneExchanges env.clock.prune

theorem pruned_lookup (s : Server) (env : Env) (k : SocketAddr × UInt16) :
    (s.pruned env).exchanges.lookup k = (s.exchanges.lookup k).filter fun ex =>
      decide (env.clock.prune < ex.time + (Config.exchangeLifetime : Int)) := by
  have hpos : 0 < Config.exchangeLifetime := by decide
  refine (AList.lookup_retain _ _ _).trans (congrArg (Option.filter · _) (funext fun ex => ?_))
  unfold durationSince
  exact decide_eq_decide.mpr (by omega)

theorem pruned_eq_none {s : Server} {env : Env} {k : SocketAddr × UInt16}
    (h : ∀ ex, s.exchanges.lookup k = some ex →
      ex.time + (Config.exchangeLifetime : Int) ≤ env.clock.prune) :
    (s.pruned env).exchanges.lookup k = none := by
  rw [pruned_lookup, Option.filter_eq_none_iff]
  intro ex hex
  rw [decide_eq_true_iff]
  exact Int.not_lt.mpr (h ex hex)

section

variable (cfg : Config)

def AssemblerFor (s : Server) (key : TransferKey) (a : BlockAssembler) : Prop :=
  (∃ t, s.blockAssemblers.lookup key = some (a, t)) ∨
    s.blockAssemblers.lookup key = none ∧ s.blockAssemblers.size < cfg.maxBlockAssemblers ∧
      a = .new cfg.maxPayload

def Fed (s : Server) (env : Env) (key : TransferKey) (m : CoapMessage) (e : BlockAssembler × Int) :
    Prop :=
  m.Operates ∧ ∃ a block, s.AssemblerFor cfg key a ∧ m.block1 = some block ∧
    (a.processBlock block m.payload).1 ≠ .ok true ∧
    e = ((a.processBlock block m.payload).2, env.clock.touch)

/-- The message brings a whole request payload: its own, or that of the transfer it ends. -/
def Brings (s : Server) (peer : SocketAddr) (m : CoapMessage) (payload : List UInt8) : Prop :=
  m.block1 = none ∧ payload = m.payload ∨
    ∃ block a, m.block1 = some block ∧ s.AssemblerFor cfg (transferKey peer m) a ∧
      a.Accepts block m.payload ∧ block.more = false ∧ payload = a.buffer ++ m.payload

/-- The message brings a block that its transfer waits for and that is not the last one. -/
def Proceeds (s : Server) (peer : SocketAddr) (m : CoapMessage) : Prop :=
  ∃ block a, m.block1 = some block ∧ s.AssemblerFor cfg (transferKey peer m) a ∧
    a.Accepts block m.payload ∧ block.more = true

/-- The handler is called with the certificate of the connection and the payload that the message
    brings. -/
def Called (s : Server) (peer : SocketAddr) (m : CoapMessage) (call : HandlerCall) : Prop :=
  m.Operates ∧ call.clientCert = (s.connections.lookup peer).bind DtlsConnection.clientCert ∧
    s.Brings cfg peer m call.payload

/-- The handler, called for the message, answers with the response. -/
def Answers (s : Server) (env : Env) (peer : SocketAddr) (m : CoapMessage)
    (response : EstResponse) : Prop :=
  ∃ call, s.Called cfg peer m call ∧ env.handle call = .ok (.ok response)

/-- What a reply is made of, its bytes included; `cache` is the response cache afterwards. -/
def Replied (s : Server) (env : Env) (peer : SocketAddr) (m : CoapMessage)
    (cache : Table TransferKey CachedResponse) (reply : Reply) (sent : Bool) : Prop :=
  match reply.content with
  | .plain => IsError reply.bytes ∨
    ∃ response, s.Answers cfg env peer m response ∧ IsResponse response reply.bytes
  | .proceed => m.Operates ∧ s.Proceeds cfg peer m ∧ IsContinue reply.bytes
  | .nextBlock key body num =>
    key = transferKey peer m ∧ (∃ block, m.block2 = some block ∧ block.num = num) ∧
      BlockOf body num reply.bytes ∧
      ∃ c, s.responseCache.lookup key = some c ∧ c.disasm.payload = body
  | .firstBlock key body =>
    key = transferKey peer m ∧ BlockOf body 0 reply.bytes ∧
      (∃ response, s.Answers cfg env peer m response ∧ response.payload = body ∧
        body.length > blockSizeFromSzx cfg.blockSzx) ∧
      (sent = true → ∀ c, cache.lookup key = some c → c.disasm.payload = body ∨
        s.responseCache.lookup key = some c ∧ s.responseCache.size ≥ cfg.maxBlockAssemblers)

/-- Where a cached response comes from: it was cached before, perhaps touched since, or its first
    block has just been sent. -/
def CachedFrom (s : Server) (peer : SocketAddr) (m : CoapMessage) (sent : List (Reply × Bool))
    (key : TransferKey) (c : CachedResponse) : Prop :=
  s.responseCache.lookup key = some c ∨
    key = transferKey peer m ∧
      ((∃ c', s.responseCache.lookup key = some c' ∧ c'.disasm = c.disasm) ∨
        ∃ bytes, ((⟨.firstBlock key c.disasm.payload, bytes⟩ : Reply), true) ∈ sent)

/-- What serving message `m` from `peer` does, from the tables `s` with its exchange recorded. -/
structure Effect (s : Server) (env : Env) (peer : SocketAddr) (m : CoapMessage) (r : Step) :
    Prop where
  connections : r.server.connections = s.connections
  opened : r.server.opened = s.opened
  assemblers : AList.All (fun key e => s.blockAssemblers.lookup key = some e ∨
    key = transferKey peer m ∧ s.Fed cfg env key m e) r.server.blockAssemblers
  cache : AList.All (s.CachedFrom peer m (replies r.events)) r.server.responseCache
  reply_le_one : (replies r.events).length ≤ 1
  exchanges : ∀ k, r.server.exchanges.lookup k = (s.exchanges.lookup k).map fun ex =>
    if k = (peer, m.messageId) then ex.answered (replies r.events) else ex
  called : ∀ call ∈ calls r.events, s.Called cfg peer m call
  call_le_one : (calls r.events).length ≤ 1
  replied : ∀ p ∈ replies r.events,
    s.Replied cfg env peer m r.server.responseCache p.1 p.2
  noReplay : ∀ reply sent, Event.replayed reply sent ∉ r.events

/-- Before anything is sent, serving a message has changed at most its own transfer and its own
    cached response. -/
structure Kept (s : Server) (env : Env) (peer : SocketAddr) (m : CoapMessage) (s' : Server) :
    Prop where
  connections : s'.connections = s.connections
  opened : s'.opened = s.opened
  exchanges : s'.exchanges = s.exchanges
  assemblers : AList.All (fun key e => s.blockAssemblers.lookup key = some e ∨
    key = transferKey peer m ∧ s.Fed cfg env key m e) s'.blockAssemblers
  cache : AList.All (s.CachedFrom peer m []) s'.responseCache

end

/-! ## Sending -/

section

variable (s : Server) (peer : SocketAddr) (messageId : UInt16) (reply : Reply)

theorem storeResponse_lookup (k : SocketAddr × UInt16) :
    (s.storeResponse peer messageId reply).exchanges.lookup k = (s.exchanges.lookup k).map fun ex =>
      if k = (peer, messageId) then { ex with response := some reply } else ex := by
  unfold storeResponse
  split
  · next ex hex =>
    show (s.exchanges.insert (peer, messageId) _).lookup k = _
    rw [AList.lookup_insert_eq]
    split
    · next hk => rw [hk, hex, Option.map_some]
    · rw [Option.map_id']
  · next hnone =>
    by_cases hk : k = (peer, messageId)
    · rw [hk, hnone, Option.map_none]
    · simp only [if_neg hk, Option.map_id']

@[simp] theorem storeResponse_connections :
    (s.storeResponse peer messageId reply).connections = s.connections := by
  unfold storeResponse
  split <;> rfl

@[simp] theorem storeResponse_opened :
    (s.storeResponse peer messageId reply).opened = s.opened := by
  unfold storeResponse
  split <;> rfl

@[simp] theorem storeResponse_blockAssemblers :
    (s.storeResponse peer messageId reply).blockAssemblers = s.blockAssemblers := by
  unfold storeResponse
  split <;> rfl

@[simp] theorem storeResponse_responseCache :
    (s.storeResponse peer messageId reply).responseCache = s.responseCache := by
  unfold storeResponse
  split <;> rfl

end

section

variable {cfg : Config} {s s' : Server} {env : Env} {peer : SocketAddr} {m : CoapMessage}

theorem CachedFrom.mono {sent sent' : List (Reply × Bool)} (h : ∀ p ∈ sent, p ∈ sent')
    (key : TransferKey) (c : CachedResponse) (hc : s.CachedFrom peer m sent key c) :
    s.CachedFrom peer m sent' key c := by
  obtain hold | ⟨hkey, htouched | ⟨bytes, hmem⟩⟩ := hc
  · exact .inl hold
  · exact .inr ⟨hkey, .inl htouched⟩
  · exact .inr ⟨hkey, .inr ⟨bytes, h _ hmem⟩⟩

theorem Kept.silent (h : s.Kept cfg env peer m s') (res : Outcome CoapError Unit) :
    s.Effect cfg env peer m ⟨s', [], res⟩ where
  connections := h.connections
  opened := h.opened
  assemblers := h.assemblers
  cache := h.cache
  reply_le_one := Nat.zero_le _
  exchanges := by
    intro k
    show s'.exchanges.lookup k = (s.exchanges.lookup k).map fun ex =>
      if k = (peer, m.messageId) then ex else ex
    simp only [ite_self, Option.map_id', h.exchanges]
  called := by simp
  call_le_one := Nat.zero_le _
  replied := by simp
  noReplay := by simp

variable {cache : Table TransferKey CachedResponse}

theorem Kept.reply (h : s.Kept cfg env peer m s') (content : Content) (bytes : List UInt8)
    (sent : Bool) (hcache : AList.All (s.CachedFrom peer m [(⟨content, bytes⟩, sent)]) cache)
    (hreplied : s.Replied cfg env peer m cache ⟨content, bytes⟩ sent) (res : Outcome CoapError Unit) :
    s.Effect cfg env peer m
      ⟨{ s'.storeResponse peer m.messageId ⟨content, bytes⟩ with responseCache := cache },
        [.replied ⟨content, bytes⟩ sent], res⟩ where
  connections := by rw [storeResponse_connections, h.connections]
  opened := by rw [storeResponse_opened, h.opened]
  assemblers := by
    rw [storeResponse_blockAssemblers]
    exact h.assemblers
  cache := hcache
  reply_le_one := Nat.le_refl 1
  exchanges := by
    intro k
    rw [storeResponse_lookup, h.exchanges]
    rfl
  called := nofun
  call_le_one := Nat.zero_le _
  replied := by
    intro p hp
    rw [List.mem_singleton.mp hp]
    exact hreplied
  noReplay := by
    intro reply sent hmem
    exact nomatch List.mem_singleton.mp hmem

theorem sendEncoded_storeResponse (p : SocketAddr) (messageId : UInt16) (reply : Reply) :
    (s.storeResponse p messageId reply).sendEncoded env peer = s.sendEncoded env peer := by
  unfold sendEncoded
  rw [storeResponse_connections]

theorem sendResponse_eq (content : Content) (message : CoapMessage) :
    s.sendResponse env peer content message =
      ⟨s.storeResponse peer message.messageId ⟨content, message.encode⟩,
        [.replied ⟨content, message.encode⟩ (s.sendEncoded env peer).isOk],
        .ofExcept (s.sendEncoded env peer)⟩ := by
  unfold sendResponse
  dsimp only
  rw [sendEncoded_storeResponse]

theorem Kept.send (h : s.Kept cfg env peer m s') (content : Content) (response : CoapMessage)
    (hid : response.messageId = m.messageId)
    (hreplied : s.Replied cfg env peer m s'.responseCache ⟨content, response.encode⟩
      (s'.sendEncoded env peer).isOk) :
    s.Effect cfg env peer m (s'.sendResponse env peer content response) := by
  have hreply := h.reply content response.encode _
    (h.cache.imp (CachedFrom.mono fun _ hp => nomatch hp)) hreplied
    (.ofExcept (s'.sendEncoded env peer))
  rw [sendResponse_eq, hid]
  rw [← storeResponse_responseCache s' peer m.messageId ⟨content, response.encode⟩] at hreply
  exact hreply

theorem Kept.sendError (h : s.Kept cfg env peer m s') (error : CoapError) :
    s.Effect cfg env peer m (s'.sendError env peer m error) :=
  h.send .plain _ rfl (.inl (isError_buildErrorResponse m error))

variable {call : HandlerCall}

theorem Effect.afterCall {r : Step} (h : s.Effect cfg env peer m r) (hnone : calls r.events = [])
    (hcall : s.Called cfg peer m call) : s.Effect cfg env peer m (r.after (.called call)) where
  connections := h.connections
  opened := h.opened
  assemblers := h.assemblers
  cache := h.cache
  reply_le_one := h.reply_le_one
  exchanges := h.exchanges
  called := by
    intro call' hmem
    have hcalls : calls (Step.after (.called call) r).events = call :: calls r.events := rfl
    rw [hcalls, hnone, List.mem_singleton] at hmem
    rw [hmem]
    exact hcall
  call_le_one := by
    show (call :: calls r.events).length ≤ 1
    rw [hnone]
    exact Nat.le_refl 1
  replied := h.replied
  noReplay := by
    intro reply sent hmem
    obtain heq | hrest := List.mem_cons.mp hmem
    · exact nomatch heq
    · exact h.noReplay reply sent hrest

variable (cfg s env peer m) in
theorem Kept.refl : s.Kept cfg env peer m s where
  connections := rfl
  opened := rfl
  exchanges := rfl
  assemblers := fun _ _ h => .inl h
  cache := fun _ _ h => .inl h

theorem Kept.withCache (h : s.Kept cfg env peer m s')
    (hcache : AList.All (s.CachedFrom peer m []) cache) :
    s.Kept cfg env peer m { s' with responseCache := cache } :=
  ⟨h.connections, h.opened, h.exchanges, h.assemblers, hcache⟩

theorem Kept.withAssemblers (h : s.Kept cfg env peer m s')
    {assemblers : Table TransferKey (BlockAssembler × Int)}
    (hassemblers : AList.All (fun key e => s.blockAssemblers.lookup key = some e ∨
      key = transferKey peer m ∧ s.Fed cfg env key m e) assemblers) :
    s.Kept cfg env peer m { s' with blockAssemblers := assemblers } :=
  ⟨h.connections, h.opened, h.exchanges, hassemblers, h.cache⟩

/-! ## The stages -/

theorem continueResponse_effect {block2 : BlockOption} (hblock2 : m.block2 = some block2) :
    s.Effect cfg env peer m (s.continueResponse env peer m block2.num) := by
  have hrefl := Kept.refl cfg s env peer m
  unfold continueResponse
  dsimp only
  split
  · exact hrefl.sendError _
  · next cached hcached =>
    split
    · exact (hrefl.withCache (hrefl.cache.erase _)).sendError _
    · next data block hdata =>
      refine (hrefl.withCache ?_).send (.nextBlock _ _ _) _ rfl
        ⟨rfl, ⟨block2, hblock2, rfl⟩, blockOf_getBlock hdata .., cached, hcached, rfl⟩
      split
      · exact hrefl.cache.insert (.inr ⟨rfl, .inl ⟨cached, hcached, rfl⟩⟩)
      · exact hrefl.cache.erase _

def AssemblyKept (cfg : Config) (s : Server) (env : Env) (peer : SocketAddr) (m : CoapMessage) :
    Assembly → Prop
  | .rejected s' _ => s.Kept cfg env peer m s'
  | .pending s' => s.Kept cfg env peer m s' ∧ s.Proceeds cfg peer m
  | .complete s' payload => s.Kept cfg env peer m s' ∧ s'.responseCache = s.responseCache ∧
    s.Brings cfg peer m payload

theorem feedBlock_kept (hop : m.Operates) {a : BlockAssembler} {block : BlockOption}
    (ha : s.AssemblerFor cfg (transferKey peer m) a) (hblock : m.block1 = some block) :
    AssemblyKept cfg s env peer m
      (s.feedBlock env (transferKey peer m) a block m.payload) := by
  have hrefl := Kept.refl cfg s env peer m
  have hstored : ∀ res a', a.processBlock block m.payload = (res, a') → res ≠ .ok true →
      s.Kept cfg env peer m { s with blockAssemblers :=
        (s.blockAssemblers.insert (transferKey peer m) (a', env.clock.touch)) } := by
    intro res a' hprocess hres
    refine hrefl.withAssemblers
      (hrefl.assemblers.insert (.inr ⟨rfl, hop, a, block, ha, hblock, ?_, ?_⟩))
    · rw [hprocess]
      exact hres
    · rw [hprocess]
  by_cases haccepts : a.Accepts block m.payload
  · have hprocess :=
      processBlock_next a block m.payload haccepts.running haccepts.next haccepts.size
    have hkept := hstored _ _ hprocess
    rw [feedBlock, hprocess]
    cases hmore : block.more with
    | true =>
      rw [hmore] at hkept
      exact ⟨hkept nofun, block, a, hblock, ha, haccepts, hmore⟩
    | false =>
      exact ⟨hrefl.withAssemblers (hrefl.assemblers.erase _), rfl,
        .inr ⟨block, a, hblock, ha, haccepts, hmore, rfl⟩⟩
  · obtain ⟨e, hprocess⟩ := processBlock_refused haccepts
    rw [feedBlock, hprocess]
    exact hstored _ _ hprocess nofun

variable (cfg s env peer m) in
theorem assemble_kept (hop : m.Operates) :
    AssemblyKept cfg s env peer m (s.assemble cfg env peer m) := by
  have hrefl := Kept.refl cfg s env peer m
  unfold assemble
  split
  · next hnone => exact ⟨hrefl, rfl, .inl ⟨hnone, rfl⟩⟩
  · next block hblock =>
    dsimp only
    split
    · next a t ha => exact feedBlock_kept hop (.inl ⟨t, ha⟩) hblock
    · next hnone =>
      split
      · exact hrefl
      · next hroom => exact feedBlock_kept hop (.inr ⟨hnone, Nat.not_le.mp hroom, rfl⟩) hblock

theorem getBlock_zero (d : BlockDisassembler) (h : 0 < d.payload.length) :
    ∃ block, d.getBlock 0 = some block :=
  ⟨_, getBlock_of_lt d 0 (by decide) (by rw [Nat.zero_mul]; exact h)⟩

variable {request : CoapEstRequest} {response : EstResponse}

theorem sendFirstBlock_effect (h : s.Kept cfg env peer m s')
    (hcache : s'.responseCache = s.responseCache)
    (hmessage : request.message = m) (hanswers : s.Answers cfg env peer m response)
    (hlong : response.payload.length > blockSizeFromSzx cfg.blockSzx) :
    s.Effect cfg env peer m (s'.sendFirstBlock cfg env peer request response) := by
  subst hmessage
  obtain ⟨⟨data, block⟩, hblock⟩ :=
    getBlock_zero (.new response.payload cfg.blockSzx) (Nat.zero_lt_of_lt hlong)
  have hmade : ∃ r, s.Answers cfg env peer request.message r ∧ r.payload = response.payload ∧
      response.payload.length > blockSizeFromSzx cfg.blockSzx := ⟨response, hanswers, rfl, hlong⟩
  have hold : ∀ sent, AList.All (s.CachedFrom peer request.message sent) s'.responseCache :=
    fun sent => h.cache.imp (CachedFrom.mono fun _ hp => nomatch hp)
  unfold sendFirstBlock
  dsimp only
  rw [hblock]
  dsimp only
  have hfirst := blockOf_getBlock hblock request.message (responseCode request.operation)
    response.contentFormat
  generalize hack : acknowledge request.message _ _ data = ack at hfirst ⊢
  have hid : ack.messageId = request.message.messageId := by
    rw [← hack]
    rfl
  cases hsent : s'.sendEncoded env peer with
  | error e =>
    -- block 0 did not go out, so nothing is cached
    have hreply := h.send (.firstBlock (transferKey peer request.message) response.payload) ack hid
      ⟨rfl, hfirst, hmade, by rw [hsent]; nofun⟩
    rw [sendResponse_eq, hsent] at hreply ⊢
    exact hreply
  | ok =>
    rw [sendResponse_eq, hsent, hid]
    show s.Effect cfg env peer request.message ⟨(s'.storeResponse _ _ _).cacheResponse cfg _ _, _, _⟩
    unfold cacheResponse
    rw [storeResponse_responseCache]
    split
    · next hroom =>
      refine h.reply (.firstBlock _ _) _ _ ((hold _).insert ?_)
        ⟨rfl, hfirst, hmade, fun _ c hc => ?_⟩ _
      · exact .inr ⟨rfl, .inr ⟨ack.encode, List.mem_singleton_self _⟩⟩
      · rw [AList.lookup_insert] at hc
        rw [← Option.some.inj hc]
        exact .inl rfl
    · next hfull =>
      have hreply := h.reply (.firstBlock (transferKey peer request.message) response.payload)
        ack.encode true (hold _)
        ⟨rfl, hfirst, hmade, fun _ c hc => .inr ⟨hcache ▸ hc, hcache ▸ Nat.not_lt.mp hfull⟩⟩ (.ok ())
      rw [← storeResponse_responseCache s' peer request.message.messageId] at hreply
      exact hreply

theorem calls_sendFirstBlock :
    calls (s.sendFirstBlock cfg env peer request response).events = [] := by
  unfold sendFirstBlock
  dsimp only
  split
  · rfl
  · split <;> rfl

theorem calls_respond : calls (s.respond cfg env peer request response).events = [] := by
  unfold respond
  split
  · rfl
  · split
    · exact calls_sendFirstBlock
    · rfl

section

variable (h : s.Kept cfg env peer m s') (hcache : s'.responseCache = s.responseCache)
  (hmessage : request.message = m)

include h hcache hmessage

theorem respond_effect (hanswers : s.Answers cfg env peer m response) :
    s.Effect cfg env peer m (s'.respond cfg env peer request response) := by
  unfold respond
  split
  · exact h.silent _
  · split
    · next hlong => exact sendFirstBlock_effect h hcache hmessage hanswers hlong
    · exact h.send .plain _ (by rw [← hmessage]; rfl)
        (.inr ⟨response, hanswers, request.message, responseCode request.operation, rfl⟩)

theorem dispatch_effect (hop : m.Operates) {payload : List UInt8}
    (hbrings : s.Brings cfg peer m payload) :
    s.Effect cfg env peer m (s'.dispatch cfg env peer request payload) := by
  subst hmessage
  have hcall : s.Called cfg peer request.message (s'.handlerCall peer request payload) := by
    refine ⟨hop, ?_, hbrings⟩
    rw [handlerCall, h.connections]
  unfold dispatch
  split
  · exact h.sendError _
  · dsimp only
    split
    · exact (h.silent _).afterCall rfl hcall
    · exact (h.sendError _).afterCall rfl hcall
    · next response hhandle =>
      exact (respond_effect h hcache rfl ⟨_, hcall, hhandle⟩).afterCall calls_respond hcall

end

theorem serveOperation_effect (hfirst : ¬ m.Continues) :
    s.Effect cfg env peer m (s.serveOperation cfg env peer m) := by
  unfold serveOperation
  split
  · exact (Kept.refl cfg s env peer m).sendError _
  · next request hroute =>
    have hmessage := routeMessage_message hroute
    have hop : m.Operates := ⟨hfirst, request, hroute⟩
    have hkept := assemble_kept cfg s env peer m hop
    rw [hmessage]
    split
    · next s' e hassemble =>
      rw [hassemble] at hkept
      exact Kept.silent hkept _
    · next s' hassemble =>
      rw [hassemble] at hkept
      exact hkept.1.send .proceed _ rfl ⟨hop, hkept.2, m, _, rfl⟩
    · next s' payload hassemble =>
      rw [hassemble] at hkept
      exact dispatch_effect hkept.1 hkept.2.1 hmessage hop hkept.2.2

theorem serve_effect : s.Effect cfg env peer m (s.serve cfg env peer m) := by
  unfold serve
  split
  · split
    · next hnone =>
      refine serveOperation_effect fun ⟨block, hblock, _⟩ => ?_
      rw [hnone] at hblock
      exact nomatch hblock
    · next block hsome =>
      split
      · exact continueResponse_effect hsome
      · next hzero =>
        refine serveOperation_effect fun ⟨block', hblock, hpos⟩ => hzero ?_
        rw [Option.some.inj (hsome.symm.trans hblock)]
        exact hpos
  · exact (Kept.refl cfg s env peer m).silent _

end

/-! ## process_datagram -/

inductive Handling (cfg : Config) (s : Server) (env : Env) (data : List UInt8) (peer : SocketAddr) :
    Step → Prop where
  /-- It is not a CoAP message, or not one to answer. -/
  | ignored (hwhy : ∀ m, CoapMessage.parse data = .ok m → ¬ m.Answerable)
      (res : Outcome CoapError Unit) : Handling cfg s env data peer ⟨s.reaped env, [], res⟩
  /-- It is too large, which is answered before its message id is looked at. -/
  | oversized {m : CoapMessage} (hparse : CoapMessage.parse data = .ok m)
      (hlarge : m.payload.length > cfg.maxPayload) :
      Handling cfg s env data peer ((s.reaped env).sendError env peer m
        (.payloadTooLarge m.payload.length cfg.maxPayload))
  /-- Its message id is taken and there is nothing to send again, or the table is full. -/
  | unanswered {m : CoapMessage} (hparse : CoapMessage.parse data = .ok m)
      (hwhy : (∃ ex, (s.pruned env).exchanges.lookup (peer, m.messageId) = some ex ∧
          (ex.request ≠ data ∨ ex.response = none)) ∨
        (s.pruned env).exchanges.lookup (peer, m.messageId) = none ∧
          (s.pruned env).exchanges.size ≥ cfg.maxExchanges)
      (res : Outcome CoapError Unit) : Handling cfg s env data peer ⟨s.pruned env, [], res⟩
  /-- It is a duplicate, and the stored response is sent again. -/
  | replayed {m : CoapMessage} {ex : Exchange} {reply : Reply}
      (hparse : CoapMessage.parse data = .ok m)
      (hex : (s.pruned env).exchanges.lookup (peer, m.messageId) = some ex)
      (hrequest : ex.request = data) (hresponse : ex.response = some reply) :
      Handling cfg s env data peer ⟨s.pruned env,
        [.replayed reply ((s.pruned env).sendEncoded env peer).isOk],
        .ofExcept ((s.pruned env).sendEncoded env peer)⟩
  /-- It is new. -/
  | accepted {m : CoapMessage} {r : Step} (hparse : CoapMessage.parse data = .ok m)
      (hanswerable : m.Answerable) (hsize : m.payload.length ≤ cfg.maxPayload)
      (hnew : (s.pruned env).exchanges.lookup (peer, m.messageId) = none)
      (hroom : (s.pruned env).exchanges.size < cfg.maxExchanges)
      (heffect : ((s.pruned env).recordExchange peer m.messageId data env.clock.accept).Effect
        cfg env peer m r) : Handling cfg s env data peer (r.after .accepted)

theorem processDatagram_handling (cfg : Config) (s : Server) (env : Env) (data : List UInt8)
    (peer : SocketAddr) : Handling cfg s env data peer (s.processDatagram cfg env data peer) := by
  unfold processDatagram
  dsimp only
  split
  · next e hparse => exact .ignored (fun m hm => nomatch hparse.symm.trans hm) _
  · next hparse => exact .ignored (fun m hm => nomatch hparse.symm.trans hm) _
  · next m hparse =>
    split
    · next htype =>
      refine .ignored (fun m' hm' => ?_) _
      rw [← Outcome.ok.inj (hparse.symm.trans hm')]
      exact fun h => h.elim htype.1 htype.2
    · next htype =>
      have hanswerable : m.Answerable := by
        by_cases hcon : m.msgType = .confirmable
        · exact .inl hcon
        · exact .inr (not_not.mp fun hnon => htype ⟨hcon, hnon⟩)
      split
      · next hlarge => exact .oversized hparse hlarge
      · next hsize =>
        show Handling cfg s env data peer ((s.reaped env).exchange cfg env peer m data)
        unfold exchange deduplicate
        dsimp only
        rw [show (s.reaped env).pruneExchanges env.clock.prune = s.pruned env from rfl]
        cases hex : (s.pruned env).exchanges.lookup (peer, m.messageId) with
        | some ex =>
          dsimp only
          by_cases hrequest : ex.request = data
          · rw [if_neg (not_not.mpr hrequest)]
            cases hresponse : ex.response with
            | none => exact .unanswered hparse (.inl ⟨ex, hex, .inr hresponse⟩) _
            | some reply => exact .replayed hparse hex hrequest hresponse
          · rw [if_pos hrequest]
            exact .unanswered hparse (.inl ⟨ex, hex, .inl hrequest⟩) _
        | none =>
          dsimp only
          by_cases hfull : (s.pruned env).exchanges.size ≥ cfg.maxExchanges
          · rw [if_pos hfull]
            exact .unanswered hparse (.inr ⟨hex, hfull⟩) _
          · rw [if_neg hfull]
            exact .accepted hparse hanswerable (Nat.not_lt.mp hsize) hex (Nat.not_le.mp hfull)
              serve_effect

end Server

end Kipuka.Coap
