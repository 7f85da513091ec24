/-
  How much a peer can make the server keep, and which part of a response it gets.
-/
import Kipuka.Coap.Blockwise
import Kipuka.Coap.Transfer

namespace Kipuka.Coap.Server

open Generic

/-! ## The response cache -/

section Cache

variable {cfg : Config} {s : Server} {env : Env} {peer : SocketAddr}

@[simp] theorem sendResponse_responseCache (content : Content) (message : CoapMessage) :
    (s.sendResponse env peer content message).server.responseCache = s.responseCache :=
  storeResponse_responseCache s peer message.messageId ⟨content, message.encode⟩

@[simp] theorem sendError_responseCache (message : CoapMessage) (e : CoapError) :
    (s.sendError env peer message e).server.responseCache = s.responseCache :=
  sendResponse_responseCache .plain _

def Assembly.server : Assembly → Server
  | .rejected s _ => s
  | .pending s => s
  | .complete s _ => s

variable (cfg s env peer) in
theorem assemble_responseCache (message : CoapMessage) :
    (s.assemble cfg env peer message).server.responseCache = s.responseCache := by
  have hfeed : ∀ key a block data,
      (s.feedBlock env key a block data).server.responseCache = s.responseCache := by
    intro key a block data
    unfold feedBlock
    dsimp only
    split
    · rfl
    · rfl
    · split <;> rfl
  unfold assemble
  dsimp only
  split
  · rfl
  · split
    · exact hfeed ..
    · split
      · rfl
      · exact hfeed ..

theorem continueResponse_cache (message : CoapMessage) (num : UInt32) :
    (s.continueResponse env peer message num).server.responseCache.size ≤ s.responseCache.size := by
  unfold continueResponse
  dsimp only
  split
  · rw [sendError_responseCache]
  · next cached hcached =>
    split
    · rw [sendError_responseCache]
      exact AList.size_erase_le _ _
    · rw [sendResponse_responseCache]
      dsimp only
      split
      · exact AList.size_insert_of_some _ hcached
      · exact AList.size_erase_le _ _

variable (hs : s.responseCache.size ≤ cfg.maxBlockAssemblers)

include hs

theorem cacheResponse_cache (key : TransferKey) (cached : CachedResponse) :
    (s.cacheResponse cfg key cached).responseCache.size ≤ cfg.maxBlockAssemblers := by
  unfold cacheResponse
  split
  · next hroom => exact (AList.size_insert_le _ _ _).trans hroom
  · exact hs

theorem sendFirstBlock_cache (request : CoapEstRequest) (response : EstResponse) :
    (s.sendFirstBlock cfg env peer request response).server.responseCache.size ≤
      cfg.maxBlockAssemblers := by
  unfold sendFirstBlock
  dsimp only
  split
  · exact cacheResponse_cache hs _ _
  · split
    · apply cacheResponse_cache
      rw [sendResponse_responseCache]
      exact hs
    · rw [sendResponse_responseCache]
      exact hs

theorem dispatch_cache (request : CoapEstRequest) (payload : List UInt8) :
    (s.dispatch cfg env peer request payload).server.responseCache.size ≤
      cfg.maxBlockAssemblers := by
  unfold dispatch
  split
  · rw [sendError_responseCache]
    exact hs
  · dsimp only [Step.after]
    split
    · exact hs
    · rw [sendError_responseCache]
      exact hs
    · unfold respond
      split
      · exact hs
      · split
        · exact sendFirstBlock_cache hs _ _
        · rw [sendResponse_responseCache]
          exact hs

theorem serveOperation_cache (message : CoapMessage) :
    (s.serveOperation cfg env peer message).server.responseCache.size ≤
      cfg.maxBlockAssemblers := by
  unfold serveOperation
  split
  · rw [sendError_responseCache]
    exact hs
  · next request _ =>
    rw [← assemble_responseCache cfg s env peer request.message] at hs
    generalize s.assemble cfg env peer request.message = assembly at hs
    cases assembly with
    | rejected s' e => exact hs
    | pending s' =>
      dsimp only
      rw [sendResponse_responseCache]
      exact hs
    | complete s' payload => exact dispatch_cache hs _ _

theorem serve_cache (message : CoapMessage) :
    (s.serve cfg env peer message).server.responseCache.size ≤ cfg.maxBlockAssemblers := by
  unfold serve
  split
  · split
    · exact serveOperation_cache hs message
    · split
      · exact (continueResponse_cache message _).trans hs
      · exact serveOperation_cache hs message
  · exact hs

theorem processDatagram_cache (data : List UInt8) :
    (s.processDatagram cfg env data peer).server.responseCache.size ≤ cfg.maxBlockAssemblers := by
  have hreaped : (s.reaped env).responseCache.size ≤ cfg.maxBlockAssemblers :=
    (AList.size_retain_le _ _).trans hs
  unfold processDatagram
  dsimp only
  split
  · exact hreaped
  · exact hreaped
  · next message _ =>
    split
    · exact hreaped
    · split
      · rw [sendError_responseCache]
        exact hreaped
      · unfold exchange
        dsimp only
        split
        · exact hreaped
        · exact hreaped
        · exact hreaped
        · exact hreaped
        · have hrecorded : (((s.reaped env).pruneExchanges env.clock.prune).recordExchange peer
            message.messageId data env.clock.accept).responseCache.size ≤ cfg.maxBlockAssemblers :=
            hreaped
          exact serve_cache hrecorded message

end Cache

/-! ## The tables -/

/-- The tables of the server and the buffers in them keep to their limits. -/
structure Within (cfg : Config) (s : Server) : Prop where
  assemblers : s.blockAssemblers.size ≤ cfg.maxBlockAssemblers
  buffers : AList.All (fun _ e => e.1.buffer.length ≤ cfg.maxPayload) s.blockAssemblers
  cache : s.responseCache.size ≤ cfg.maxBlockAssemblers
  exchanges : s.exchanges.size ≤ cfg.maxExchanges

namespace Within

variable {cfg : Config} {s : Server} {env : Env} {peer : SocketAddr}

theorem storeResponse_exchanges (s : Server) (peer : SocketAddr) (messageId : UInt16)
    (reply : Reply) :
    (s.storeResponse peer messageId reply).exchanges.size ≤ s.exchanges.size := by
  refine AList.size_le_size fun k ex hex => ?_
  rw [storeResponse_lookup] at hex
  obtain ⟨ex', hex', -⟩ := Option.map_eq_some_iff.mp hex
  exact ⟨ex', hex'⟩

theorem processBlock_buffer {a : BlockAssembler} {limit : Nat} (hlimit : a.maxPayload = limit)
    (ha : a.buffer.length ≤ limit) (block : BlockOption) (data : List UInt8) :
    (a.processBlock block data).2.buffer.length ≤ limit := by
  by_cases haccepts : a.Accepts block data
  · rw [processBlock_next a block data haccepts.running haccepts.next haccepts.size]
    dsimp only
    rw [List.length_append, ← hlimit]
    exact haccepts.size
  · obtain ⟨e, hprocess⟩ := processBlock_refused haccepts
    rw [hprocess]
    exact ha

section

variable (h : Within cfg s)

include h

theorem purge (peer : SocketAddr) : Within cfg (s.purge peer) :=
  ⟨(AList.size_retain_le _ _).trans h.assemblers, h.buffers.retain _,
    (AList.size_retain_le _ _).trans h.cache, (AList.size_retain_le _ _).trans h.exchanges⟩

theorem pruned (env : Env) : Within cfg (s.pruned env) :=
  ⟨(AList.size_retain_le _ _).trans h.assemblers, h.buffers.retain _,
    (AList.size_retain_le _ _).trans h.cache, (AList.size_retain_le _ _).trans h.exchanges⟩

theorem effect (htransfers : Transfers cfg s.blockAssemblers) {m : CoapMessage} {r : Step}
    (heffect : s.Effect cfg env peer m r)
    (hcache : r.server.responseCache.size ≤ cfg.maxBlockAssemblers) : Within cfg r.server where
  assemblers := (htransfers.effect heffect).size
  buffers := by
    intro k e he
    obtain hold | ⟨rfl, -, a, block, ha, -, -, rfl⟩ := heffect.assemblers k e he
    · exact h.buffers k e hold
    · refine processBlock_buffer (htransfers.assemblerFor ha).limit ?_ block m.payload
      obtain ⟨t, ha⟩ | ⟨-, -, rfl⟩ := ha
      · exact h.buffers _ (a, t) ha
      · exact Nat.zero_le _
  cache := hcache
  exchanges := by
    refine le_trans (AList.size_le_size fun k ex hex => ?_) h.exchanges
    rw [heffect.exchanges] at hex
    obtain ⟨ex', hex', -⟩ := Option.map_eq_some_iff.mp hex
    exact ⟨ex', hex'⟩

theorem handle (htransfers : Transfers cfg s.blockAssemblers) (data : List UInt8) :
    Within cfg (s.processDatagram cfg env data peer).server := by
  have hcache : (s.processDatagram cfg env data peer).server.responseCache.size ≤
      cfg.maxBlockAssemblers := processDatagram_cache h.cache data
  have hpruned := h.pruned env
  have hhandling := processDatagram_handling cfg s env data peer
  generalize s.processDatagram cfg env data peer = r at hhandling hcache ⊢
  cases hhandling with
  | ignored hwhy res => exact ⟨hpruned.assemblers, hpruned.buffers, hpruned.cache, h.exchanges⟩
  | oversized hparse hlarge =>
    refine ⟨?_, ?_, hcache, (storeResponse_exchanges _ _ _ _).trans h.exchanges⟩
    · show (storeResponse _ _ _ _).blockAssemblers.size ≤ _
      rw [storeResponse_blockAssemblers]
      exact hpruned.assemblers
    · show AList.All _ (storeResponse _ _ _ _).blockAssemblers
      rw [storeResponse_blockAssemblers]
      exact hpruned.buffers
  | unanswered | replayed => exact hpruned
  | @accepted m r hparse hanswerable hsize hnew hroom heffect =>
    have hrecorded : Within cfg
        ((s.pruned env).recordExchange peer m.messageId data env.clock.accept) := by
      refine ⟨hpruned.assemblers, hpruned.buffers, hpruned.cache, ?_⟩
      exact (AList.size_insert_le _ _ _).trans hroom
    have hserved : Within cfg r.server :=
      hrecorded.effect (htransfers.reaped env) heffect hcache
    exact hserved

end

theorem preserved (cfg : Config) : Preserved cfg fun log s => Transfers cfg s.blockAssemblers ∧
    Within cfg s ∧ ∀ h, .handled h ∈ log → Within cfg h.before where
  bind := ⟨(Transfers.preserved cfg).bind,
    ⟨Nat.zero_le _, AList.all_empty _, Nat.zero_le _, Nat.zero_le _⟩, by simp⟩
  drop := by
    rintro log s conns ⟨htransfers, hwithin, hlog⟩ -
    exact ⟨htransfers, ⟨hwithin.assemblers, hwithin.buffers, hwithin.cache, hwithin.exchanges⟩, hlog⟩
  purge := by
    rintro log s peer ⟨htransfers, hwithin, hlog⟩ -
    exact ⟨htransfers.purge peer, hwithin.purge peer, hlog⟩
  connect := by
    rintro log s peer createdAt ⟨htransfers, hwithin, hlog⟩ -
    have hpurged := hwithin.purge peer
    refine ⟨htransfers.purge peer,
      ⟨hpurged.assemblers, hpurged.buffers, hpurged.cache, hpurged.exchanges⟩, fun h hmem => ?_⟩
    exact hlog h (Numbered.mem_of_mem_snoc hmem nofun)
  establish := by
    rintro log s peer conn cert ⟨htransfers, hwithin, hlog⟩ - -
    refine ⟨htransfers, ⟨hwithin.assemblers, hwithin.buffers, hwithin.cache, hwithin.exchanges⟩,
      fun h hmem => ?_⟩
    exact hlog h (Numbered.mem_of_mem_snoc hmem nofun)
  handle := by
    rintro log s peer conn data env ⟨htransfers, hwithin, hlog⟩ - -
    refine ⟨htransfers.handle (processDatagram_handling cfg s env data peer),
      hwithin.handle htransfers data, fun h hmem => ?_⟩
    rcases List.mem_append.mp hmem with hold | hnew
    · exact hlog h hold
    · obtain rfl := Entry.handled.inj (List.mem_singleton.mp hnew)
      exact hwithin

end Within

/-- Over any run of the server the tables are within their limits, after every turn and before
    every message that is handled in one. -/
theorem tables_within (cfg : Config) (inputs : List Input) :
    Within cfg ((machine cfg).run .bind inputs).1 ∧
      ∀ h, .handled h ∈ log cfg inputs → Within cfg h.before :=
  ((Within.preserved cfg).run inputs).2

open Sample in
theorem tables_within_one :
    ∃ h, .handled h ∈ log config [arrival (answering 0 [0x30, 0x00]) (post 1 [] [0x2A])] ∧
      Within config h.before := by
  have hsome : (handledAt (log config [arrival (answering 0 [0x30, 0x00]) (post 1 [] [0x2A])])
      2).isSome = true := by decide +kernel
  obtain ⟨h, hat⟩ := Option.isSome_iff_exists.mp hsome
  have hmem : .handled h ∈ log config [arrival (answering 0 [0x30, 0x00]) (post 1 [] [0x2A])] := by
    rw [log_split hat]
    exact List.mem_append_right _ List.mem_cons_self
  exact ⟨h, hmem, (tables_within config _).2 h hmem⟩

/-! ## Later blocks of a response -/

theorem blockSizeFromSzx_new (payload : List UInt8) (szx : UInt8) :
    blockSizeFromSzx (BlockDisassembler.new payload szx).szx = 2 ^ ((min szx maxSzx).toNat + 4) := by
  have hle : min szx maxSzx ≤ maxSzx := by
    show (if szx ≤ maxSzx then szx else maxSzx) ≤ maxSzx
    split
    · assumption
    · exact UInt8.le_refl maxSzx
  have hmin : min (min szx maxSzx) maxSzx = min szx maxSzx := if_pos hle
  rw [blockSizeFromSzx, Nat.one_shiftLeft, BlockDisassembler.new, hmin]

theorem getBlock_at {d : BlockDisassembler} {size : Nat} (hsize : blockSizeFromSzx d.szx = size)
    (num : UInt32) (h : num.toNat * size < d.payload.length) :
    d.getBlock num = some ((d.payload.drop (num.toNat * size)).take size,
      ⟨num, decide (num.toNat * size + size < d.payload.length), d.szx⟩) := by
  subst hsize
  have hget := getBlock_of_lt d num.toNat num.toNat_lt h
  rwa [Nat.toUInt32, UInt32.ofNat_toNat, Nat.add_mul, Nat.one_mul] at hget

theorem serve_nextBlock (cfg : Config) {s : Server} {peer : SocketAddr} {message : CoapMessage}
    {block2 block : BlockOption} {cached : CachedResponse} {data : List UInt8} (env : Env)
    (hrequest : message.code.isRequest = true) (hblock2 : message.block2 = some block2)
    (hnum : block2.num > 0)
    (hcached : s.responseCache.lookup (transferKey peer message) = some cached)
    (hblock : cached.disasm.getBlock block2.num = some (data, block)) :
    (s.serve cfg env peer message).events =
      [.replied ⟨.nextBlock (transferKey peer message) cached.disasm.payload block2.num,
          (acknowledge message cached.code
            (blockOptions cached.contentFormat block cached.disasm) data).encode⟩
        (s.sendEncoded env peer).isOk] := by
  rw [serve, if_pos hrequest, hblock2]
  dsimp only
  rw [if_pos hnum, continueResponse, hcached]
  dsimp only
  rw [hblock]
  dsimp only
  rw [sendResponse_eq]
  rfl

/-- A request for block `num` of a cached response is answered with the part of the response that
    begins at byte `num * 2 ^ (szx + 4)` for the exponent it was cut with, or with an error if the
    response ends before. That is the part that the client asked for if and only if the request has
    this exponent too. -/
theorem serve_continuation (cfg : Config) (s : Server) (env : Env) (peer : SocketAddr)
    (message : CoapMessage) (block2 : BlockOption) (cached : CachedResponse) (body : List UInt8)
    (szx : UInt8) (hrequest : message.code.isRequest = true) (hblock2 : message.block2 = some block2)
    (hnum : block2.num > 0)
    (hcached : s.responseCache.lookup (transferKey peer message) = some cached)
    (hbody : cached.disasm = .new body szx) :
    let size := 2 ^ ((min szx maxSzx).toNat + 4)
    let offset := block2.num.toNat * size
    (offset < body.length → (s.serve cfg env peer message).events =
      [.replied ⟨.nextBlock (transferKey peer message) body block2.num,
          (acknowledge message cached.code
            (blockOptions cached.contentFormat
              ⟨block2.num, decide (offset + size < body.length), min szx maxSzx⟩ cached.disasm)
            ((body.drop offset).take size)).encode⟩
        (s.sendEncoded env peer).isOk]) ∧
    (body.length ≤ offset → (s.serve cfg env peer message).events =
      [.replied ⟨.plain, (buildErrorResponse message
          (.invalidMessage "unknown Block2 exchange")).encode⟩ (s.sendEncoded env peer).isOk]) ∧
    (offset = block2.num.toNat * 2 ^ (block2.szx.toNat + 4) ↔ block2.szx = min szx maxSzx) := by
  intro size offset
  have hsize : blockSizeFromSzx (BlockDisassembler.new body szx).szx = size :=
    blockSizeFromSzx_new body szx
  refine ⟨fun hin => ?_, fun hout => ?_, fun hoffset => ?_, fun hszx => ?_⟩
  · have hblock : cached.disasm.getBlock block2.num = some ((body.drop offset).take size,
        ⟨block2.num, decide (offset + size < body.length), min szx maxSzx⟩) := by
      rw [hbody]
      exact getBlock_at hsize block2.num hin
    have hserve := serve_nextBlock cfg env hrequest hblock2 hnum hcached hblock
    rwa [show cached.disasm.payload = body by rw [hbody]; rfl] at hserve
  · have hblock : cached.disasm.getBlock block2.num = none := by
      rw [hbody, ← Option.not_isSome_iff_eq_none, BlockDisassembler.getBlock_isSome, hsize]
      exact Nat.not_lt.mpr hout
    rw [serve, if_pos hrequest, hblock2]
    dsimp only
    rw [if_pos hnum, continueResponse, hcached]
    dsimp only
    rw [hblock]
    dsimp only [sendError]
    rw [sendResponse_eq]
    rfl
  · have hpos : 0 < block2.num.toNat := UInt32.lt_iff_toNat_lt.mp hnum
    have hpow := Nat.pow_right_injective (le_refl 2) (Nat.eq_of_mul_eq_mul_left hpos hoffset)
    exact UInt8.toNat_inj.mp (Nat.add_right_cancel hpow).symm
  · rw [hszx]

namespace Sample

def continuation (szx : UInt8) : CoapMessage where
  version := coapVersion
  msgType := .confirmable
  code := ⟨0, 1⟩
  messageId := 7
  token := [0xAA]
  options := [⟨optionUriPath, asBytes "crts"⟩,
    .fromUint optionBlock2 (BlockOption.encode ⟨1, false, szx⟩)]
  payload := []

def body : List UInt8 := (List.range 40).map Nat.toUInt8

def caching : Server :=
  let cached : CachedResponse := ⟨.new body 1, 281, .content, 0⟩
  { Server.bind with responseCache := AList.insert (transferKey peer (continuation 1)) cached ∅ }

/-- The answer to a request for block 1 with `data` and the option `block`. -/
def answered (szx : UInt8) (block : BlockOption) (data : List UInt8) : List Event :=
  [.replied ⟨.nextBlock (transferKey peer (continuation szx)) body 1,
    (acknowledge (continuation szx) .content (blockOptions 281 block (.new body 1)) data).encode⟩
      false]

end Sample

open Sample in
/-- Block 1 of blocks of 32 bytes is the last 8 of 40. -/
theorem serve_continuation_last :
    (caching.serve config (answering 0 []) peer (continuation 1)).events =
      answered 1 ⟨1, false, 1⟩ (body.drop 32) := by
  have hdata : (body.drop 32).take 32 = body.drop 32 := by decide
  rw [← hdata]
  exact (serve_continuation config caching (answering 0 []) peer (continuation 1) ⟨1, false, 1⟩
    ⟨.new body 1, 281, .content, 0⟩ body 1 rfl (by decide +kernel) (by decide)
    (by decide +kernel) rfl).1 (by decide)

open Sample in
/-- A client that asks for block 1 of 16 bytes, which begins at byte 16, gets what begins at
    byte 32. -/
theorem serve_continuation_smaller :
    (continuation 0).block2 = some ⟨1, false, 0⟩ ∧
      (caching.serve config (answering 0 []) peer (continuation 0)).events =
        answered 0 ⟨1, false, 1⟩ (body.drop 32) ∧ body.drop 32 ≠ (body.drop 16).take 16 := by
  have hblock2 : (continuation 0).block2 = some ⟨1, false, 0⟩ := by decide +kernel
  refine ⟨hblock2, ?_, by decide⟩
  have hcached : caching.responseCache.lookup (transferKey peer (continuation 0)) =
      some ⟨.new body 1, 281, .content, 0⟩ := by decide +kernel
  exact serve_nextBlock config (answering 0 []) rfl hblock2 (by decide) hcached (by decide)

end Kipuka.Coap.Server
