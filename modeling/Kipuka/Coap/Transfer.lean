/-
  Uploads: a request sent as a complete sequence of Block1 blocks, one block a message.
-/
import Kipuka.Coap.Answer

namespace Kipuka.Coap

open Generic

/-! ## Assemblers at rest -/

structure BlockAssembler.Waiting (cfg : Config) (a : BlockAssembler) : Prop where
  running : a.complete = false
  limit : a.maxPayload = cfg.maxPayload
  start : a.nextNum = 0 → a.buffer = []

variable {m : CoapMessage} {block : BlockOption}

theorem block1_num_lt (h : m.block1 = some block) : block.num.toNat < 2 ^ 28 := by
  obtain ⟨o, -, rfl⟩ := Option.map_eq_some_iff.mp h
  have hlt := o.valueAsUint.toNat_lt
  show (o.valueAsUint >>> 4).toNat < 2 ^ 28
  rw [UInt32.toNat_shiftRight, Nat.shiftRight_eq_div_pow]
  show o.valueAsUint.toNat / 2 ^ 4 < 2 ^ 28
  omega

variable {cfg : Config} {a : BlockAssembler}

theorem BlockAssembler.Waiting.processBlock (h : a.Waiting cfg) (hblock : m.block1 = some block)
    (hopen : (a.processBlock block m.payload).1 ≠ .ok true) :
    (a.processBlock block m.payload).2.Waiting cfg := by
  by_cases haccepts : a.Accepts block m.payload
  · have hprocess :=
      processBlock_next a block m.payload haccepts.running haccepts.next haccepts.size
    rw [hprocess] at hopen ⊢
    have hmore : block.more = true := by
      cases hmore : block.more with
      | true => rfl
      | false =>
        rw [hmore] at hopen
        exact absurd rfl hopen
    refine ⟨by rw [hmore]; rfl, h.limit, fun hzero => ?_⟩
    -- the numbers of blocks have 28 bits, so the next one is not 0
    have hlt := block1_num_lt hblock
    have hnat := congrArg UInt32.toNat hzero
    rw [UInt32.toNat_add] at hnat
    change (block.num.toNat + 1) % 2 ^ 32 = 0 at hnat
    omega
  · obtain ⟨e, hprocess⟩ := processBlock_refused haccepts
    rw [hprocess]
    exact ⟨h.running, h.limit, h.start⟩

namespace Server

structure Transfers (cfg : Config) (table : Table TransferKey (BlockAssembler × Int)) : Prop where
  size : table.size ≤ cfg.maxBlockAssemblers
  waiting : AList.All (fun _ e => e.1.Waiting cfg) table

variable {key : TransferKey}

namespace Transfers

variable {cfg : Config} {s : Server} {env : Env} {peer : SocketAddr} {m : CoapMessage}

theorem retain {table : Table TransferKey (BlockAssembler × Int)} (h : Transfers cfg table)
    (keep : TransferKey → BlockAssembler × Int → Bool) : Transfers cfg (table.retain keep) :=
  ⟨(AList.size_retain_le _ _).trans h.size, h.waiting.retain _⟩

section

variable (h : Transfers cfg s.blockAssemblers)

include h

theorem reaped (env : Env) : Transfers cfg (s.reaped env).blockAssemblers :=
  h.retain fun _ e => decide (e.2 > env.clock.reap - Config.blockTtl)

theorem purge (peer : SocketAddr) : Transfers cfg (s.purge peer).blockAssemblers :=
  h.retain fun key _ => decide (key.peer ≠ peer)

theorem assemblerFor (ha : s.AssemblerFor cfg key a) : a.Waiting cfg := by
  obtain ⟨t, ha⟩ | ⟨-, -, rfl⟩ := ha
  · exact h.waiting key (a, t) ha
  · exact ⟨rfl, rfl, fun _ => rfl⟩

end

variable {r : Step}

theorem effect (h : Transfers cfg s.blockAssemblers)
    (heffect : s.Effect cfg env peer m r) : Transfers cfg r.server.blockAssemblers := by
  constructor
  · by_cases hsub : ∀ k v, r.server.blockAssemblers.lookup k = some v →
        ∃ w, s.blockAssemblers.lookup k = some w
    · exact (AList.size_le_size hsub).trans h.size
    · -- a new transfer, for which there was room
      push Not at hsub
      obtain ⟨k, v, hv, hnew⟩ := hsub
      obtain hold | ⟨rfl, -, a, block, ha, -⟩ := heffect.assemblers k v hv
      · exact absurd hold (hnew v)
      · obtain ⟨t, ha⟩ | ⟨hnone, hroom, -⟩ := ha
        · exact absurd ha (hnew _)
        · refine Nat.le_trans ?_ (Nat.succ_le_of_lt hroom)
          rw [Nat.succ_eq_add_one, ← AList.size_insert_of_none v hnone]
          refine AList.size_le_size fun k' v' hv' => ?_
          rw [AList.lookup_insert_eq]
          obtain hold | ⟨rfl, -⟩ := heffect.assemblers k' v' hv'
          · split
            · exact ⟨v, rfl⟩
            · exact ⟨v', hold⟩
          · exact ⟨v, if_pos rfl⟩
  · intro k e he
    obtain hold | ⟨rfl, -, a, block, ha, hblock, hopen, rfl⟩ := heffect.assemblers k e he
    · exact h.waiting k e hold
    · exact (h.assemblerFor ha).processBlock hblock hopen

theorem handle (h : Transfers cfg s.blockAssemblers) {data : List UInt8}
    (hhandling : Handling cfg s env data peer r) : Transfers cfg r.server.blockAssemblers := by
  cases hhandling with
  | ignored | unanswered | replayed => exact h.reaped env
  | oversized hparse hlarge =>
    show Transfers cfg (storeResponse _ _ _ _).blockAssemblers
    rw [storeResponse_blockAssemblers]
    exact h.reaped env
  | @accepted m r hparse hanswerable hsize hnew hroom heffect =>
    have hrecorded : Transfers cfg ((s.pruned env).recordExchange peer m.messageId data
      env.clock.accept).blockAssemblers := h.reaped env
    have hserved : Transfers cfg r.server.blockAssemblers := hrecorded.effect heffect
    exact hserved

theorem preserved (cfg : Config) : Preserved cfg fun _ s => Transfers cfg s.blockAssemblers where
  bind := ⟨Nat.zero_le _, AList.all_empty _⟩
  drop := fun _ _ _ h _ => h
  purge := fun _ _ peer h _ => h.purge peer
  connect := fun _ _ peer _ h _ => h.purge peer
  establish := fun _ _ _ _ _ h _ _ => h
  handle := fun _ s peer _ data env h _ _ => h.handle (processDatagram_handling cfg s env data peer)

end Transfers

variable {s : Server}

theorem Reachable.transfers (h : Reachable cfg s) : Transfers cfg s.blockAssemblers := by
  obtain ⟨inputs, rfl⟩ := h
  exact (Transfers.preserved cfg).run inputs

/-! ## Uploads -/

structure Piece where
  env : Env
  data : List UInt8
  message : CoapMessage
  option : BlockOption
  parsed : CoapMessage.parse data = .ok message
  answerable : message.Answerable
  block1 : message.block1 = some option

/-- The blocks have consecutive numbers from `i`, and every block but the last says that more
    follow. -/
def InOrder : Nat → List Piece → Prop
  | _, [] => True
  | i, p :: rest =>
    p.option.num.toNat = i ∧ p.option.more = !rest.isEmpty ∧ InOrder (i + 1) rest

def collected (pieces : List Piece) : List UInt8 := pieces.flatMap fun p => p.message.payload

/-- The message ids are different and none of them is taken when its message arrives. -/
def FreshIds (s : Server) (peer : SocketAddr) (pieces : List Piece) : Prop :=
  (pieces.map fun p => p.message.messageId).Nodup ∧
    ∀ p ∈ pieces, ∀ ex, s.exchanges.lookup (peer, p.message.messageId) = some ex →
      ex.time + (Config.exchangeLifetime : Int) ≤ p.env.clock.prune

section

variable (cfg : Config) (peer : SocketAddr)

def uploading : Machine Server Piece Step where
  step s p :=
    let step := s.processDatagram cfg p.env p.data peer
    (step.server, [step])

def delivered (steps : List Step) : List (List UInt8) :=
  steps.flatMap fun r => (calls r.events).map HandlerCall.payload

def Proceeded (p : Piece) (r : Step) : Prop :=
  ∃ sent, replies r.events = [(⟨.proceed, (acknowledge p.message ⟨2, 31⟩
    [.fromUint optionBlock1 p.option.encode] []).encode⟩, sent)]

/-- Of several pieces, the first one is answered with a request for more. -/
def Starts (s : Server) : List Piece → Prop
  | p :: _ :: _ => Proceeded p (s.processDatagram cfg p.env p.data peer)
  | _ => True

/-- The exchange table has room for each of the messages when it arrives. -/
def Roomy (s : Server) : List Piece → Prop
  | [] => True
  | p :: rest =>
    (s.pruned p.env).exchanges.size < cfg.maxExchanges ∧
      Roomy (s.processDatagram cfg p.env p.data peer).server rest

/-- Each block arrives before the transfer, last touched at `t`, is stale. -/
def SpacedFrom (t : Int) : List Piece → Prop
  | [] => True
  | p :: rest => p.env.clock.reap < t + Config.blockTtl ∧ SpacedFrom p.env.clock.touch rest

def Takes (s : Server) (p : Piece) : Prop :=
  p.message.Operates ∧ (s.pruned p.env).exchanges.size < cfg.maxExchanges ∧
    ∃ a, (s.reaped p.env).AssemblerFor cfg (transferKey peer p.message) a ∧
      a.Accepts p.option p.message.payload

end

/-! ## Blocks that are not taken -/

variable {env : Env}

section Untaken

variable {cfg : Config} {s : Server} {peer : SocketAddr} {p : Piece} {r : Step}

section

variable (h : Handling cfg s p.env p.data peer r)

include h

theorem Handling.takes_of_call {call : HandlerCall} (hcall : call ∈ calls r.events) :
    s.Takes cfg peer p := by
  cases h with
  | ignored | unanswered | replayed | oversized => exact nomatch hcall
  | @accepted m r hparse hanswerable hsize hnew hroom heffect =>
    obtain rfl := Outcome.ok.inj (hparse.symm.trans p.parsed)
    obtain ⟨hop, -, hbrings⟩ := heffect.called call hcall
    obtain ⟨hnone, -⟩ | ⟨block, a, hblock, ha, haccepts, -⟩ := hbrings
    · exact nomatch hnone.symm.trans p.block1
    · obtain rfl := Option.some.inj (hblock.symm.trans p.block1)
      exact ⟨hop, hroom, a, ha, haccepts⟩

theorem Handling.takes_of_proceeded (hproceeded : Proceeded p r) : s.Takes cfg peer p := by
  obtain ⟨sent, hreplies⟩ := hproceeded
  cases h with
  | ignored | unanswered | replayed => exact nomatch hreplies
  | oversized hparse hlarge =>
    have hcontent := congrArg (List.map fun q : Reply × Bool => q.1.content) hreplies
    exact nomatch hcontent
  | @accepted m r hparse hanswerable hsize hnew hroom heffect =>
    obtain rfl := Outcome.ok.inj (hparse.symm.trans p.parsed)
    have hreplied := heffect.replied _ (hreplies ▸ List.mem_singleton_self _)
    obtain ⟨hop, ⟨block, a, hblock, ha, haccepts, -⟩, -⟩ := hreplied
    obtain rfl := Option.some.inj (hblock.symm.trans p.block1)
    exact ⟨hop, hroom, a, ha, haccepts⟩

theorem Handling.untaken (hno : ¬ s.Takes cfg peer p) {e : BlockAssembler × Int}
    (he : r.server.blockAssemblers.lookup (transferKey peer p.message) = some e) :
    ∃ a, (s.reaped p.env).AssemblerFor cfg (transferKey peer p.message) a ∧
      e.1.nextNum = a.nextNum := by
  have hold : (s.reaped p.env).blockAssemblers.lookup (transferKey peer p.message) = some e →
      ∃ a, (s.reaped p.env).AssemblerFor cfg (transferKey peer p.message) a ∧
        e.1.nextNum = a.nextNum := fun he => ⟨e.1, .inl ⟨e.2, he⟩, rfl⟩
  cases h with
  | ignored | unanswered | replayed => exact hold he
  | oversized hparse hlarge =>
    change (storeResponse _ _ _ _).blockAssemblers.lookup _ = _ at he
    rw [storeResponse_blockAssemblers] at he
    exact hold he
  | @accepted m r hparse hanswerable hsize hnew hroom heffect =>
    obtain rfl := Outcome.ok.inj (hparse.symm.trans p.parsed)
    obtain hsame | ⟨-, hop, a, block, ha, hblock, -, rfl⟩ := heffect.assemblers _ e he
    · exact hold hsame
    · obtain rfl := Option.some.inj (hblock.symm.trans p.block1)
      refine ⟨a, ha, ?_⟩
      obtain ⟨err, hprocess⟩ := processBlock_refused fun haccepts =>
        hno ⟨hop, hroom, a, ha, haccepts⟩
      rw [hprocess]

end

def Behind (s : Server) (key : TransferKey) (i : Nat) : Prop :=
  ∀ e, s.blockAssemblers.lookup key = some e → e.1.nextNum.toNat < i

variable {i : Nat}

theorem Behind.assemblerFor (h : s.Behind key i) (hi : 0 < i)
    (ha : (s.reaped env).AssemblerFor cfg key a) : a.nextNum.toNat < i := by
  obtain ⟨t, ha⟩ | ⟨-, -, rfl⟩ := ha
  · exact h _ (AList.lookup_of_retain ha).1
  · exact hi

section

variable (h : s.Behind (transferKey peer p.message) i) (hi : 0 < i)

include h hi

theorem Behind.untaken (hno : ¬ s.Takes cfg peer p) (hhandling : Handling cfg s p.env p.data peer r) :
    calls r.events = [] ∧ r.server.Behind (transferKey peer p.message) i := by
  constructor
  · exact List.eq_nil_iff_forall_not_mem.mpr fun call hcall => hno (hhandling.takes_of_call hcall)
  · intro e he
    obtain ⟨a, ha, hsame⟩ := hhandling.untaken hno he
    rw [hsame]
    exact h.assemblerFor hi ha

theorem Behind.not_takes (hnum : p.option.num.toNat = i) : ¬ s.Takes cfg peer p := by
  rintro ⟨-, -, a, ha, haccepts⟩
  have hlt := h.assemblerFor hi ha
  rw [← haccepts.next, hnum] at hlt
  exact Nat.lt_irrefl i hlt

end

theorem Behind.succ (h : s.Behind key i) : s.Behind key (i + 1) :=
  fun e he => Nat.lt_succ_of_lt (h e he)

theorem delivered_cons (cfg : Config) (peer : SocketAddr) (s : Server) (p : Piece)
    (rest : List Piece) :
    delivered ((uploading cfg peer).run s (p :: rest)).2 =
      (calls (s.processDatagram cfg p.env p.data peer).events).map HandlerCall.payload ++
        delivered ((uploading cfg peer).run
          (s.processDatagram cfg p.env p.data peer).server rest).2 := rfl

theorem Behind.delivered_nil (pieces : List Piece) (h : s.Behind key i) (hi : 0 < i)
    (horder : InOrder i pieces) (hkey : ∀ p ∈ pieces, transferKey peer p.message = key) :
    delivered ((uploading cfg peer).run s pieces).2 = [] := by
  induction pieces generalizing i s with
  | nil => rfl
  | cons p rest ih =>
    obtain ⟨hnum, -, hrest⟩ := horder
    rw [List.forall_mem_cons] at hkey
    rw [← hkey.1] at h
    obtain ⟨hnone, hbehind⟩ := h.untaken hi (h.not_takes hi hnum)
      (processDatagram_handling cfg s p.env p.data peer)
    rw [hkey.1] at hbehind
    rw [delivered_cons, hnone, ih hbehind.succ (Nat.succ_pos i) hrest hkey.2]
    rfl

end Untaken

/-! ## Message ids -/

variable {data : List UInt8} {r : Step}

theorem Handling.exchange_old {peer : SocketAddr} (h : Handling cfg s env data peer r)
    (hparse : CoapMessage.parse data = .ok m) {k : SocketAddr × UInt16}
    (hk : k ≠ (peer, m.messageId)) {ex : Exchange} (hex : r.server.exchanges.lookup k = some ex) :
    s.exchanges.lookup k = some ex := by
  have hpruned : (s.pruned env).exchanges.lookup k = some ex → s.exchanges.lookup k = some ex :=
    fun h => (AList.lookup_of_retain h).1
  cases h with
  | ignored hwhy res => exact hex
  | unanswered | replayed => exact hpruned hex
  | @oversized m' hparse' hlarge =>
    obtain rfl := Outcome.ok.inj (hparse'.symm.trans hparse)
    refine Eq.trans ?_ hex
    refine Eq.trans ?_ (storeResponse_lookup (s.reaped env) peer m'.messageId _ k).symm
    simp only [if_neg hk, Option.map_id']
    rfl
  | @accepted m' r hparse' hanswerable hsize hnew hroom heffect =>
    obtain rfl := Outcome.ok.inj (hparse'.symm.trans hparse)
    refine hpruned (Eq.trans ?_ hex)
    refine Eq.trans ?_ (heffect.exchanges k).symm
    simp only [if_neg hk, Option.map_id']
    exact (AList.lookup_insert_ne hk).symm

theorem freshIds_of_none {peer : SocketAddr} {pieces : List Piece}
    (hnodup : (pieces.map fun p => p.message.messageId).Nodup)
    (hnone : ∀ p ∈ pieces, s.exchanges.lookup (peer, p.message.messageId) = none) :
    s.FreshIds peer pieces :=
  ⟨hnodup, fun p hp _ hex => nomatch (hnone p hp).symm.trans hex⟩

theorem FreshIds.rest {peer : SocketAddr} {p : Piece}
    {rest : List Piece} (h : s.FreshIds peer (p :: rest)) :
    (s.processDatagram cfg p.env p.data peer).server.FreshIds peer rest := by
  obtain ⟨hnodup, hfree⟩ := h
  rw [List.map_cons, List.nodup_cons] at hnodup
  refine ⟨hnodup.2, fun q hq ex hex => hfree q (List.mem_cons_of_mem p hq) ex ?_⟩
  have hhandling := processDatagram_handling cfg s p.env p.data peer
  refine hhandling.exchange_old p.parsed (fun heq => ?_) hex
  refine hnodup.1 (List.mem_map.mpr ⟨q, hq, ?_⟩)
  exact (Prod.mk.inj heq).2

/-! ## Blocks that are taken -/

section Taken

variable {cfg : Config} {s : Server} {peer : SocketAddr} {p : Piece}

theorem calls_dispatch {request : CoapEstRequest} {payload : List UInt8}
    (hsize : payload.length ≤ cfg.maxPayload) :
    calls (s.dispatch cfg env peer request payload).events =
      [s.handlerCall peer request payload] := by
  unfold dispatch
  rw [if_neg (Nat.not_lt.mpr hsize)]
  dsimp only
  split
  · rfl
  · rfl
  · next response _ =>
    show s.handlerCall peer request payload ::
      calls (s.respond cfg env peer request response).events = _
    rw [calls_respond]

theorem processDatagram_taken (hop : p.message.Operates)
    (hroom : (s.pruned p.env).exchanges.size < cfg.maxExchanges)
    (hnew : (s.pruned p.env).exchanges.lookup (peer, p.message.messageId) = none)
    (ha : (s.reaped p.env).AssemblerFor cfg (transferKey peer p.message) a)
    (haccepts : a.Accepts p.option p.message.payload) (hlimit : a.maxPayload = cfg.maxPayload) :
    ∃ s' : Server, ∃ request szx, s.processDatagram cfg p.env p.data peer = .after .accepted
      (if p.option.more then
        { s' with blockAssemblers := (s'.blockAssemblers.insert (transferKey peer p.message)
            (⟨a.buffer ++ p.message.payload, p.option.num + 1, szx, a.maxPayload, false⟩,
              p.env.clock.touch)) }.sendResponse p.env peer .proceed
          (acknowledge p.message ⟨2, 31⟩ [.fromUint optionBlock1 p.option.encode] [])
      else
        { s' with blockAssemblers := s'.blockAssemblers.erase (transferKey peer p.message) }.dispatch
          cfg p.env peer request (a.buffer ++ p.message.payload)) := by
  obtain ⟨hfirst, request, hroute⟩ := hop
  have hsize := haccepts.size
  have hrecorded : ((s.pruned p.env).recordExchange peer p.message.messageId p.data
      p.env.clock.accept).AssemblerFor cfg (transferKey peer p.message) a := ha
  obtain ⟨szx, hassemble⟩ := assemble_taken p.env p.block1 hrecorded haccepts
  refine ⟨(s.pruned p.env).recordExchange peer p.message.messageId p.data p.env.clock.accept,
    request, szx, ?_⟩
  rw [processDatagram_new p.parsed p.answerable (by omega) hnew, if_pos hroom,
    serve_operation (routeMessage_isRequest hroute) hfirst, serveOperation, hroute]
  dsimp only
  rw [routeMessage_message hroute, hassemble, p.block1]
  cases p.option.more with
  | true => rfl
  | false => rfl

variable {a : BlockAssembler} (hop : p.message.Operates)
  (hroom : (s.pruned p.env).exchanges.size < cfg.maxExchanges)
  (hnew : (s.pruned p.env).exchanges.lookup (peer, p.message.messageId) = none)
  (ha : (s.reaped p.env).AssemblerFor cfg (transferKey peer p.message) a)
  (haccepts : a.Accepts p.option p.message.payload) (hlimit : a.maxPayload = cfg.maxPayload)

include hop hroom hnew ha haccepts hlimit

theorem taken_more (hmore : p.option.more = true) :
    calls (s.processDatagram cfg p.env p.data peer).events = [] ∧
      Proceeded p (s.processDatagram cfg p.env p.data peer) ∧
      ∃ szx, (s.processDatagram cfg p.env p.data peer).server.blockAssemblers.lookup
        (transferKey peer p.message) = some
          (⟨a.buffer ++ p.message.payload, p.option.num + 1, szx, a.maxPayload, false⟩,
            p.env.clock.touch) := by
  obtain ⟨s', request, szx, hstep⟩ := processDatagram_taken hop hroom hnew ha haccepts hlimit
  rw [hmore, if_pos rfl, sendResponse_eq] at hstep
  rw [hstep]
  refine ⟨rfl, ⟨_, rfl⟩, szx, ?_⟩
  show (storeResponse _ _ _ _).blockAssemblers.lookup _ = _
  rw [storeResponse_blockAssemblers]
  exact AList.lookup_insert _

theorem taken_last (hmore : p.option.more = false) :
    (calls (s.processDatagram cfg p.env p.data peer).events).map HandlerCall.payload =
      [a.buffer ++ p.message.payload] := by
  obtain ⟨s', request, szx, hstep⟩ := processDatagram_taken hop hroom hnew ha haccepts hlimit
  have hsize : (a.buffer ++ p.message.payload).length ≤ cfg.maxPayload := by
    rw [List.length_append, ← hlimit]
    exact haccepts.size
  rw [hmore, if_neg Bool.false_ne_true] at hstep
  rw [hstep]
  show (calls (dispatch ..).events).map HandlerCall.payload = _
  rw [calls_dispatch hsize]
  rfl

end Taken

/-! ## Whole uploads -/

theorem reaped_lookup (s : Server) (env : Env) (key : TransferKey) :
    (s.reaped env).blockAssemblers.lookup key = (s.blockAssemblers.lookup key).filter fun e =>
      decide (env.clock.reap < e.2 + Config.blockTtl) := by
  refine (AList.lookup_retain _ _ _).trans (congrArg (Option.filter · _) (funext fun e => ?_))
  exact decide_eq_decide.mpr (by omega)

theorem delivered_rest {peer : SocketAddr} (pieces : List Piece) {i : Nat} {t : Int}
    (hentry : s.blockAssemblers.lookup key = some (a, t)) (hnext : a.nextNum.toNat = i) (hi : 0 < i)
    (hrunning : a.complete = false) (hlimit : a.maxPayload = cfg.maxPayload)
    (horder : InOrder i pieces) (hne : pieces ≠ [])
    (hkey : ∀ p ∈ pieces, transferKey peer p.message = key) (hfresh : s.FreshIds peer pieces)
    (hsize : (a.buffer ++ collected pieces).length ≤ cfg.maxPayload) :
    delivered ((uploading cfg peer).run s pieces).2 = [a.buffer ++ collected pieces] ↔
      (∀ p ∈ pieces, p.message.Operates) ∧ Roomy cfg peer s pieces ∧ SpacedFrom t pieces := by
  induction pieces generalizing i s a t with
  | nil => exact absurd rfl hne
  | cons p rest ih =>
    obtain ⟨hnum, hmore, horder⟩ := horder
    rw [List.forall_mem_cons] at hkey
    obtain ⟨rfl, hkey⟩ := hkey
    by_cases hhead : p.message.Operates ∧ (s.pruned p.env).exchanges.size < cfg.maxExchanges ∧
        p.env.clock.reap < t + Config.blockTtl
    · obtain ⟨hop, hroom, hgap⟩ := hhead
      have ha : (s.reaped p.env).AssemblerFor cfg (transferKey peer p.message) a := by
        refine .inl ⟨t, ?_⟩
        rw [reaped_lookup, hentry, Option.filter_some, if_pos (decide_eq_true hgap)]
      have hnew := pruned_eq_none (hfresh.2 p (List.mem_cons_self ..))
      have hcollected : a.buffer ++ collected (p :: rest) =
          (a.buffer ++ p.message.payload) ++ collected rest := by
        rw [List.append_assoc]
        rfl
      have haccepts : a.Accepts p.option p.message.payload := by
        refine ⟨hrunning, UInt32.toNat_inj.mp (hnum.trans hnext.symm), ?_⟩
        rw [hcollected, List.length_append, List.length_append] at hsize
        omega
      rw [hcollected, delivered_cons]
      cases rest with
      | nil =>
        rw [taken_last hop hroom hnew ha haccepts hlimit hmore]
        refine ⟨fun _ => ⟨?_, ⟨hroom, trivial⟩, hgap, trivial⟩, fun _ => ?_⟩
        · exact List.forall_mem_singleton.mpr hop
        · show [_] ++ [] = [_ ++ []]
          rw [List.append_nil, List.append_nil]
      | cons q rest =>
        obtain ⟨hnone, -, szx, hentry'⟩ := taken_more hop hroom hnew ha haccepts hlimit hmore
        have hnext' : (p.option.num + 1).toNat = i + 1 := by
          have hlt := block1_num_lt p.block1
          rw [UInt32.toNat_add, hnum]
          show (i + 1) % 2 ^ 32 = i + 1
          omega
        have hrest := ih hentry' hnext' (Nat.succ_pos i) rfl hlimit horder (List.cons_ne_nil _ _)
          hkey hfresh.rest (hcollected ▸ hsize)
        rw [hnone, List.map_nil, List.nil_append, hrest]
        refine ⟨fun ⟨hops, hrooms, hgaps⟩ => ⟨?_, ⟨hroom, hrooms⟩, hgap, hgaps⟩,
          fun ⟨hops, hrooms, hgaps⟩ => ⟨?_, hrooms.2, hgaps.2⟩⟩
        · exact List.forall_mem_cons.mpr ⟨hop, hops⟩
        · exact (List.forall_mem_cons.mp hops).2
    · -- the block is not taken, so the transfer falls behind
      have hbehind : s.Behind (transferKey peer p.message) (i + 1) := by
        intro e he
        obtain rfl := Option.some.inj (hentry.symm.trans he)
        rw [hnext]
        exact Nat.lt_succ_self i
      have hno : ¬ s.Takes cfg peer p := by
        rintro ⟨hop, hroom, b, hb, haccepts⟩
        refine hhead ⟨hop, hroom, ?_⟩
        obtain ⟨t', hb⟩ | ⟨-, -, rfl⟩ := hb
        · rw [reaped_lookup, hentry, Option.filter_some] at hb
          split at hb
          · next hgap => exact of_decide_eq_true hgap
          · exact nomatch hb
        · -- a new assembler waits for block 0
          rw [haccepts.next] at hnum
          exact absurd hnum (Nat.ne_of_lt hi)
      obtain ⟨hnone, hbehind⟩ := hbehind.untaken (Nat.succ_pos i) hno
        (processDatagram_handling cfg s p.env p.data peer)
      rw [delivered_cons, hnone, hbehind.delivered_nil rest (Nat.succ_pos i) horder hkey]
      refine ⟨fun h => (nomatch h), fun ⟨hops, hrooms, hgaps⟩ => absurd ?_ hhead⟩
      exact ⟨hops p (List.mem_cons_self ..), hrooms.1, hgaps.1⟩

theorem Transfers.slot (h : Transfers cfg s.blockAssemblers) (env : Env)
    (hslot : (∃ e, s.blockAssemblers.lookup key = some e) ∨
      s.blockAssemblers.size < cfg.maxBlockAssemblers) :
    ∃ a, (s.reaped env).AssemblerFor cfg key a := by
  have hsub : ∀ k e, (s.reaped env).blockAssemblers.lookup k = some e →
      s.blockAssemblers.lookup k = some e := fun _ _ he => (AList.lookup_of_retain he).1
  cases hlookup : (s.reaped env).blockAssemblers.lookup key with
  | some e => exact ⟨e.1, .inl ⟨e.2, hlookup⟩⟩
  | none =>
    refine ⟨_, .inr ⟨hlookup, ?_, rfl⟩⟩
    obtain ⟨e, he⟩ | hroom := hslot
    · -- the stale assembler has been removed
      have hle : ((s.reaped env).blockAssemblers.insert key e).size ≤ s.blockAssemblers.size := by
        refine AList.size_le_size fun k e' he' => ?_
        obtain ⟨rfl, -⟩ | ⟨-, he'⟩ := AList.lookup_of_insert he'
        · exact ⟨e, he⟩
        · exact ⟨e', hsub k e' he'⟩
      rw [AList.size_insert_of_none e hlookup] at hle
      exact Nat.lt_of_lt_of_le hle h.size
    · exact Nat.lt_of_le_of_lt (AList.size_le_size fun k e he => ⟨e, hsub k e he⟩) hroom

/-- Nothing of an earlier transfer is in the way when a block arrives: what is left of it is stale
    or has not taken a block. -/
def Unobstructed (s : Server) (key : TransferKey) (env : Env) : Prop :=
  ∀ a t, s.blockAssemblers.lookup key = some (a, t) →
    a.nextNum = 0 ∨ t + Config.blockTtl ≤ env.clock.reap

theorem AssemblerFor.unobstructed_iff
    (ha : (s.reaped env).AssemblerFor cfg key a) : s.Unobstructed key env ↔ a.nextNum = 0 := by
  constructor
  · intro h
    obtain ⟨t, ha⟩ | ⟨-, -, rfl⟩ := ha
    · rw [reaped_lookup, Option.filter_eq_some_iff, decide_eq_true_iff] at ha
      exact (h a t ha.1).resolve_right (Int.not_le.mpr ha.2)
    · rfl
  · intro hzero a' t ha'
    by_cases hgap : env.clock.reap < t + Config.blockTtl
    · refine .inl ?_
      have hlive : (s.reaped env).AssemblerFor cfg key a' := by
        refine .inl ⟨t, ?_⟩
        rw [reaped_lookup, ha', Option.filter_some, if_pos (decide_eq_true hgap)]
      rw [← ha.unique hlive]
      exact hzero
    · exact .inr (Int.not_lt.mp hgap)

variable {first : Piece}

theorem takes_of_delivered {peer : SocketAddr}
    {rest : List Piece} (hstarts : Starts cfg peer s (first :: rest))
    (hdelivered : delivered ((uploading cfg peer).run s (first :: rest)).2 =
      [collected (first :: rest)]) : s.Takes cfg peer first := by
  have hhandling := processDatagram_handling cfg s first.env first.data peer
  cases rest with
  | nil =>
    -- the one block brings a call
    rw [delivered_cons] at hdelivered
    cases hcalls : calls (s.processDatagram cfg first.env first.data peer).events with
    | nil =>
      rw [hcalls] at hdelivered
      exact nomatch hdelivered
    | cons call more => exact hhandling.takes_of_call (hcalls ▸ List.mem_cons_self ..)
  | cons q rest => exact hhandling.takes_of_proceeded hstarts

theorem accepts_first (hwaiting : a.Waiting cfg)
    (hzero : a.nextNum = 0) {rest : List Piece} (hnum : first.option.num.toNat = 0)
    (hsize : (collected (first :: rest)).length ≤ cfg.maxPayload) :
    a.Accepts first.option first.message.payload := by
  refine ⟨hwaiting.running, ?_, ?_⟩
  · rw [hzero]
    exact UInt32.toNat_inj.mp hnum
  · have hle : first.message.payload.length ≤ (collected (first :: rest)).length := by
      unfold collected
      rw [List.flatMap_cons, List.length_append]
      exact Nat.le_add_right _ _
    rw [hwaiting.start hzero, hwaiting.limit, List.length_nil, Nat.zero_add]
    exact hle.trans hsize

/-- From every reachable server with a slot for it, an upload starts with its first block and is
    delivered, exactly and once, if and only if nothing of an earlier transfer is in its way when
    it starts, its messages are for an EST operation, the exchange table has room for them, and no
    pause between them makes their transfer stale. The size exponents may be any. -/
theorem upload_delivered_iff (cfg : Config) (s : Server) (hreach : Reachable cfg s)
    (peer : SocketAddr) (first : Piece) (rest : List Piece)
    (hkey : ∀ p ∈ rest, transferKey peer p.message = transferKey peer first.message)
    (horder : InOrder 0 (first :: rest)) (hfresh : s.FreshIds peer (first :: rest))
    (hsize : (collected (first :: rest)).length ≤ cfg.maxPayload)
    (hslot : (∃ e, s.blockAssemblers.lookup (transferKey peer first.message) = some e) ∨
      s.blockAssemblers.size < cfg.maxBlockAssemblers) :
    Starts cfg peer s (first :: rest) ∧
        delivered ((uploading cfg peer).run s (first :: rest)).2 = [collected (first :: rest)] ↔
      s.Unobstructed (transferKey peer first.message) first.env ∧
        (∀ p ∈ first :: rest, p.message.Operates) ∧ Roomy cfg peer s (first :: rest) ∧
        SpacedFrom first.env.clock.touch rest := by
  have htransfers := hreach.transfers
  obtain ⟨a, ha⟩ := htransfers.slot first.env hslot
  have hwaiting := (htransfers.reaped first.env).assemblerFor ha
  obtain ⟨hnum, hmore, horder⟩ := horder
  rw [ha.unobstructed_iff]
  by_cases htakes : s.Takes cfg peer first
  · obtain ⟨hop, hroom, b, hb, haccepts⟩ := htakes
    obtain rfl := ha.unique hb
    have hzero : a.nextNum = 0 := by
      rw [← haccepts.next]
      exact UInt32.toNat_inj.mp hnum
    have hnew := pruned_eq_none (hfresh.2 first (List.mem_cons_self ..))
    rw [delivered_cons]
    cases rest with
    | nil =>
      rw [taken_last hop hroom hnew ha haccepts hwaiting.limit hmore, hwaiting.start hzero]
      refine ⟨fun _ => ⟨hzero, ?_, ⟨hroom, trivial⟩, trivial⟩, fun _ => ⟨trivial, ?_⟩⟩
      · exact List.forall_mem_singleton.mpr hop
      · show [_] ++ [] = [_ ++ []]
        rw [List.append_nil, List.append_nil, List.nil_append]
    | cons q rest =>
      obtain ⟨hnone, hproceeded, szx, hentry⟩ :=
        taken_more hop hroom hnew ha haccepts hwaiting.limit hmore
      have hnext : (first.option.num + 1).toNat = 0 + 1 := by
        rw [UInt32.toNat_add, hnum]
        rfl
      rw [hwaiting.start hzero, List.nil_append] at hentry
      have hrest := delivered_rest (q :: rest) hentry hnext Nat.one_pos rfl hwaiting.limit horder
        (List.cons_ne_nil _ _) hkey hfresh.rest hsize
      rw [hnone, List.map_nil, List.nil_append]
      refine (and_iff_right hproceeded).trans (hrest.trans ?_)
      refine ⟨fun ⟨hops, hrooms, hgaps⟩ => ⟨hzero, ?_, ⟨hroom, hrooms⟩, hgaps⟩,
        fun ⟨_, hops, hrooms, hgaps⟩ => ⟨?_, hrooms.2, hgaps⟩⟩
      · exact List.forall_mem_cons.mpr ⟨hop, hops⟩
      · exact (List.forall_mem_cons.mp hops).2
  · constructor
    · rintro ⟨hstarts, hdelivered⟩
      exact absurd (takes_of_delivered hstarts hdelivered) htakes
    · rintro ⟨hzero, hops, hrooms, -⟩
      exact absurd ⟨hops first (List.mem_cons_self ..), hrooms.1, a, ha,
        accepts_first hwaiting hzero hnum hsize⟩ htakes

/-! ## An upload after a complete request, and one after an abandoned upload -/

namespace Sample

def blockMessage (messageId : UInt16) (value : UInt8) (payload : List UInt8) : CoapMessage :=
  ⟨1, .confirmable, ⟨0, 2⟩, messageId, [0xAA], [⟨11, [0x73, 0x65, 0x6E]⟩, ⟨27, [value]⟩], payload⟩

def firstPiece : Piece where
  env := answering 1 [0x30, 0x00]
  data := post 2 (block1 0x08) (List.replicate 16 0x2B)
  message := blockMessage 2 0x08 (List.replicate 16 0x2B)
  option := ⟨0, true, 0⟩
  parsed := by decide +kernel
  answerable := .inl rfl
  block1 := by decide +kernel

def lastPiece : Piece where
  env := answering 2 [0x30, 0x00]
  data := post 3 (block1 0x10) [0x2C]
  message := blockMessage 3 0x10 [0x2C]
  option := ⟨1, false, 0⟩
  parsed := by decide +kernel
  answerable := .inl rfl
  block1 := by decide +kernel

def afterOne (data : List UInt8) : Server :=
  ((machine config).run .bind [arrival (answering 0 [0x30, 0x00]) data]).1

def idle : Server := afterOne (post 1 [] [0x2A])

def abandoned : Server := afterOne (post 1 (block1 0x08) (List.replicate 16 0x2A))

end Sample

open Sample in
theorem upload_delivered_iff_idle :
    Starts config peer idle [firstPiece, lastPiece] ∧
      delivered ((uploading config peer).run idle [firstPiece, lastPiece]).2 =
        [List.replicate 16 0x2B ++ [0x2C]] := by
  have hfresh : idle.FreshIds peer [firstPiece, lastPiece] := by
    refine freshIds_of_none (by decide) (List.forall_mem_cons.mpr ⟨by decide +kernel, ?_⟩)
    exact List.forall_mem_singleton.mpr (by decide +kernel)
  have hnone : idle.blockAssemblers.lookup (transferKey peer firstPiece.message) = none := by
    decide +kernel
  refine (upload_delivered_iff config idle ⟨_, rfl⟩ peer firstPiece [lastPiece]
    (List.forall_mem_singleton.mpr (by decide +kernel)) ⟨rfl, rfl, rfl, rfl, trivial⟩ hfresh
    (by decide) (.inr (by decide +kernel))).mpr ⟨fun a t ha => ?_, ?_, ?_, ?_⟩
  · exact nomatch hnone.symm.trans ha
  · refine List.forall_mem_cons.mpr ⟨⟨?_, _, show routeMessage firstPiece.message = .ok
      ⟨.simpleEnroll, none, .post, firstPiece.message⟩ by decide +kernel⟩,
      List.forall_mem_singleton.mpr ⟨?_, _, show routeMessage lastPiece.message = .ok
        ⟨.simpleEnroll, none, .post, lastPiece.message⟩ by decide +kernel⟩⟩
    · exact fun ⟨_, h, _⟩ => nomatch h
    · exact fun ⟨_, h, _⟩ => nomatch h
  · exact ⟨by decide +kernel, by decide +kernel, trivial⟩
  · exact ⟨by decide, trivial⟩

open Sample in
/-- The same two blocks behind the abandoned upload: the handler gets the first block of the
    abandoned upload with the last block of this one. -/
theorem abandoned_upload_mixed :
    Reachable config abandoned ∧
      (∃ e, abandoned.blockAssemblers.lookup (transferKey peer firstPiece.message) = some e) ∧
      transferKey peer lastPiece.message = transferKey peer firstPiece.message ∧
      InOrder 0 [firstPiece, lastPiece] ∧ abandoned.FreshIds peer [firstPiece, lastPiece] ∧
      collected [firstPiece, lastPiece] = List.replicate 16 0x2B ++ [0x2C] ∧
      (collected [firstPiece, lastPiece]).length ≤ config.maxPayload ∧
      delivered ((uploading config peer).run abandoned [firstPiece, lastPiece]).2 =
        [List.replicate 16 0x2A ++ [0x2C]] := by
  refine ⟨⟨_, rfl⟩, Option.isSome_iff_exists.mp (by decide +kernel), by decide +kernel,
    ⟨rfl, rfl, rfl, rfl, trivial⟩, ?_, by decide, by decide, by decide +kernel⟩
  refine freshIds_of_none (by decide) (List.forall_mem_cons.mpr ⟨by decide +kernel, ?_⟩)
  exact List.forall_mem_singleton.mpr (by decide +kernel)

end Server

end Kipuka.Coap
