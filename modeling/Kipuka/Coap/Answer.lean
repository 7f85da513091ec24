/-
  Which requests are answered. `answered_iff` is about one datagram in any state of the tables. On
  the way to an answer are the size check, the exchange table, the blocks of an upload and the
  handler, which is a parameter; a response that is too large, or cannot be sent, is no answer.
-/
import Kipuka.Coap.Run

namespace Kipuka.Coap

open Generic

/-! ## What goes out -/

def Event.sent : Event → Option (List UInt8)
  | .replied reply true => some reply.bytes
  | .replayed reply true => some reply.bytes
  | _ => none

def sent (events : List Event) : List (List UInt8) := events.filterMap Event.sent

/-- One response went out, with the message id and the token of the request. -/
def AnsweredOnce (m : CoapMessage) (events : List Event) : Prop :=
  ∃ response : CoapMessage, response.messageId = m.messageId ∧ response.token = m.token ∧
    sent events = [response.encode]

namespace Server

section Stages

variable {cfg : Config} {s s' : Server} {env : Env} {peer : SocketAddr} {m : CoapMessage}

/-- The step makes one response for the message, which goes out if sending works. -/
def Responds (s : Server) (env : Env) (peer : SocketAddr) (m : CoapMessage) (r : Step) : Prop :=
  ∃ response : CoapMessage, response.messageId = m.messageId ∧ response.token = m.token ∧
    sent r.events = if (s.sendEncoded env peer).isOk then [response.encode] else []

/-- The step makes one response for the message if `P` holds and none otherwise. -/
def RespondsIff (s : Server) (env : Env) (peer : SocketAddr) (m : CoapMessage) (P : Prop)
    (r : Step) : Prop :=
  (P → s.Responds env peer m r) ∧ (¬ P → sent r.events = [])

variable {r : Step} {P : Prop}

theorem RespondsIff.answeredOnce_iff (h : s.RespondsIff env peer m P r) :
    AnsweredOnce m r.events ↔ (s.sendEncoded env peer).isOk = true ∧ P := by
  by_cases hP : P
  · obtain ⟨response, hid, htoken, hsent⟩ := h.1 hP
    cases hok : (s.sendEncoded env peer).isOk with
    | true =>
      rw [hok, if_pos rfl] at hsent
      exact ⟨fun _ => ⟨rfl, hP⟩, fun _ => ⟨response, hid, htoken, hsent⟩⟩
    | false =>
      rw [hok, if_neg Bool.false_ne_true] at hsent
      refine ⟨fun ⟨_, _, _, hone⟩ => ?_, fun hsend => nomatch hsend.1⟩
      exact nomatch hsent.symm.trans hone
  · refine ⟨fun ⟨_, _, _, hone⟩ => ?_, fun hyes => absurd hyes.2 hP⟩
    exact nomatch (h.2 hP).symm.trans hone

theorem Responds.always (hP : P) (h : s.Responds env peer m r) : s.RespondsIff env peer m P r :=
  ⟨fun _ => h, fun hno => absurd hP hno⟩

theorem respondsIff_silent (hP : ¬ P) (h : sent r.events = []) :
    s.RespondsIff env peer m P r :=
  ⟨fun hyes => absurd hyes hP, fun _ => h⟩

theorem RespondsIff.congr {Q : Prop} (h : s'.RespondsIff env peer m P r)
    (hconns : s'.connections = s.connections) (hPQ : P ↔ Q) : s.RespondsIff env peer m Q r := by
  have hsend : s'.sendEncoded env peer = s.sendEncoded env peer := by
    unfold sendEncoded
    rw [hconns]
  unfold RespondsIff Responds at h ⊢
  rw [← hPQ, ← hsend]
  exact h

theorem RespondsIff.after (h : s.RespondsIff env peer m P r) (event : Event)
    (hevent : event.sent = none) : s.RespondsIff env peer m P (r.after event) := by
  have hsent : sent (r.after event).events = sent r.events := List.filterMap_cons_none hevent
  unfold RespondsIff Responds at h ⊢
  rw [hsent]
  exact h

/-! ## The stages -/

section

variable (cfg s env peer m)

theorem sendResponse_responds (content : Content) (code : CoapCode) (options : List CoapOption)
    (payload : List UInt8) : s.Responds env peer m
      (s.sendResponse env peer content (acknowledge m code options payload)) := by
  refine ⟨acknowledge m code options payload, rfl, rfl, ?_⟩
  rw [sendResponse_eq]
  cases (s.sendEncoded env peer).isOk with
  | true => rfl
  | false => rfl

theorem sendError_responds (error : CoapError) :
    s.Responds env peer m (s.sendError env peer m error) :=
  sendResponse_responds s env peer m .plain _ _ _

theorem continueResponse_responds (num : UInt32) :
    s.Responds env peer m (s.continueResponse env peer m num) := by
  unfold continueResponse
  dsimp only
  split
  · exact sendError_responds s env peer m _
  · split
    · exact sendError_responds { s with responseCache := _ } env peer m _
    · exact sendResponse_responds { s with responseCache := _ } env peer m _ _ _ _

section

variable (request : CoapEstRequest) (response : EstResponse)

theorem sendFirstBlock_responds (hne : 0 < response.payload.length) :
    s.Responds env peer request.message (s.sendFirstBlock cfg env peer request response) := by
  obtain ⟨⟨data, block⟩, hblock⟩ := getBlock_zero (.new response.payload cfg.blockSzx) hne
  have hresponds := sendResponse_responds s env peer request.message
    (.firstBlock (transferKey peer request.message) response.payload)
    (responseCode request.operation)
    (blockOptions response.contentFormat block (.new response.payload cfg.blockSzx)) data
  unfold sendFirstBlock
  dsimp only
  rw [hblock]
  dsimp only
  split
  · exact hresponds
  · exact hresponds

theorem respond_responds :
    s.RespondsIff env peer request.message (response.payload.length ≤ cfg.maxPayload)
      (s.respond cfg env peer request response) := by
  unfold respond
  split
  · next hlarge => exact respondsIff_silent (Nat.not_le.mpr hlarge) rfl
  · next hsize =>
    refine Responds.always (Nat.not_lt.mp hsize) ?_
    split
    · next hlong =>
      exact sendFirstBlock_responds cfg s env peer request response (Nat.zero_lt_of_lt hlong)
    · exact sendResponse_responds s env peer _ _ _ _ _

end

def HandlerAnswers (cfg : Config) (env : Env) (call : HandlerCall) : Prop :=
  ∃ result, env.handle call = .ok result ∧
    ∀ response, result = .ok response → response.payload.length ≤ cfg.maxPayload

theorem dispatch_responds (request : CoapEstRequest) (payload : List UInt8) :
    s.RespondsIff env peer request.message
      (payload.length ≤ cfg.maxPayload →
        HandlerAnswers cfg env (s.handlerCall peer request payload))
      (s.dispatch cfg env peer request payload) := by
  unfold dispatch
  split
  · next hlarge =>
    exact Responds.always (fun hle => absurd hlarge (Nat.not_lt.mpr hle))
      (sendError_responds s env peer _ _)
  · next hsize =>
    have hsize := Nat.not_lt.mp hsize
    dsimp only
    refine RespondsIff.after ?_ _ rfl
    split
    · next e hhandle =>
      refine respondsIff_silent (fun hanswers => ?_) rfl
      obtain ⟨result, hresult, -⟩ := hanswers hsize
      exact nomatch hhandle.symm.trans hresult
    · next e hhandle =>
      exact Responds.always (fun _ => ⟨_, hhandle, fun _ h => nomatch h⟩)
        (sendError_responds s env peer _ _)
    · next response hhandle =>
      refine (respond_responds cfg s env peer request response).congr rfl ⟨fun hle _ => ?_, ?_⟩
      · refine ⟨_, hhandle, fun response' hresponse => ?_⟩
        rw [← Except.ok.inj hresponse]
        exact hle
      · intro hanswers
        obtain ⟨result, hresult, hle⟩ := hanswers hsize
        exact hle response (Except.ok.inj (hresult.symm.trans hhandle))

end

/-! ## Blocks of a request -/

/-- The block of the message, if it has one, is the one its transfer waits for. -/
def BlockTaken (cfg : Config) (s : Server) (peer : SocketAddr) (m : CoapMessage) : Prop :=
  ∀ block, m.block1 = some block →
    ∃ a, s.AssemblerFor cfg (transferKey peer m) a ∧ a.Accepts block m.payload

theorem AssemblerFor.unique {key : TransferKey} {a b : BlockAssembler}
    (ha : s.AssemblerFor cfg key a) (hb : s.AssemblerFor cfg key b) : a = b := by
  obtain ⟨t, ha⟩ | ⟨hnone, -, rfl⟩ := ha
  · obtain ⟨t', hb⟩ | ⟨hnone, -⟩ := hb
    · exact (Prod.mk.inj (Option.some.inj (ha.symm.trans hb))).1
    · exact nomatch ha.symm.trans hnone
  · obtain ⟨t', hb⟩ | ⟨-, -, rfl⟩ := hb
    · exact nomatch hb.symm.trans hnone
    · rfl

variable {block : BlockOption} {a : BlockAssembler}

theorem assemble_eq_feedBlock (hblock : m.block1 = some block)
    (ha : s.AssemblerFor cfg (transferKey peer m) a) :
    s.assemble cfg env peer m = s.feedBlock env (transferKey peer m) a block m.payload := by
  unfold assemble
  rw [hblock]
  dsimp only
  obtain ⟨t, ha⟩ | ⟨hnone, hroom, rfl⟩ := ha
  · rw [ha]
  · rw [hnone]
    exact if_neg (Nat.not_le.mpr hroom)

theorem assemble_taken (env : Env) (hblock : m.block1 = some block)
    (ha : s.AssemblerFor cfg (transferKey peer m) a) (haccepts : a.Accepts block m.payload) :
    ∃ szx, s.assemble cfg env peer m =
      if block.more then
        .pending { s with blockAssemblers := (s.blockAssemblers.insert (transferKey peer m)
          (⟨a.buffer ++ m.payload, block.num + 1, szx, a.maxPayload, false⟩, env.clock.touch)) }
      else
        .complete { s with blockAssemblers := s.blockAssemblers.erase (transferKey peer m) }
          (a.buffer ++ m.payload) := by
  have hprocess :=
    processBlock_next a block m.payload haccepts.running haccepts.next haccepts.size
  refine ⟨if block.num = 0 then block.szx else a.szx, ?_⟩
  rw [assemble_eq_feedBlock hblock ha, feedBlock, hprocess]
  cases block.more with
  | true => rfl
  | false => rfl

theorem assemble_refused (env : Env) (h : ¬ s.BlockTaken cfg peer m) :
    ∃ s' e, s.assemble cfg env peer m = .rejected s' e := by
  unfold BlockTaken at h
  push Not at h
  obtain ⟨block, hblock, hnot⟩ := h
  by_cases hfor : ∃ a, s.AssemblerFor cfg (transferKey peer m) a
  · obtain ⟨a, ha⟩ := hfor
    obtain ⟨e, hprocess⟩ := processBlock_refused (hnot a ha)
    rw [assemble_eq_feedBlock hblock ha, feedBlock, hprocess]
    exact ⟨_, _, rfl⟩
  · -- no assembler and no room for one
    have hnone : s.blockAssemblers.lookup (transferKey peer m) = none := by
      apply Option.eq_none_iff_forall_ne_some.mpr
      rintro ⟨a, t⟩ ha
      exact hfor ⟨a, .inl ⟨t, ha⟩⟩
    have hfull : s.blockAssemblers.size ≥ cfg.maxBlockAssemblers :=
      Nat.not_lt.mp fun hroom => hfor ⟨_, .inr ⟨hnone, hroom, rfl⟩⟩
    unfold assemble
    rw [hblock]
    dsimp only
    rw [hnone]
    exact ⟨_, _, if_pos hfull⟩

/-! ## Serving a message -/

/-- What a new request that does not ask for a later block needs to be answered. -/
def Servable (cfg : Config) (s : Server) (env : Env) (peer : SocketAddr) (m : CoapMessage) : Prop :=
  ∀ request, routeMessage m = .ok request →
    s.BlockTaken cfg peer m ∧
      ∀ payload, s.Brings cfg peer m payload → payload.length ≤ cfg.maxPayload →
        HandlerAnswers cfg env (s.handlerCall peer request payload)

theorem servable_iff {request : CoapEstRequest} (hroute : routeMessage m = .ok request) :
    s.Servable cfg env peer m ↔ s.BlockTaken cfg peer m ∧
      ∀ payload, s.Brings cfg peer m payload → payload.length ≤ cfg.maxPayload →
        HandlerAnswers cfg env (s.handlerCall peer request payload) := by
  refine ⟨fun h => h request hroute, fun h request' hroute' => ?_⟩
  rw [← Except.ok.inj (hroute.symm.trans hroute')]
  exact h

theorem brings_none (hblock : m.block1 = none) (payload : List UInt8) :
    s.Brings cfg peer m payload ↔ payload = m.payload := by
  refine ⟨fun h => ?_, fun h => .inl ⟨hblock, h⟩⟩
  obtain ⟨-, h⟩ | ⟨block, a, h, -⟩ := h
  · exact h
  · exact nomatch hblock.symm.trans h

theorem brings_some (hblock : m.block1 = some block)
    (ha : s.AssemblerFor cfg (transferKey peer m) a) (haccepts : a.Accepts block m.payload)
    (payload : List UInt8) :
    s.Brings cfg peer m payload ↔ block.more = false ∧ payload = a.buffer ++ m.payload := by
  refine ⟨fun h => ?_, fun h => .inr ⟨block, a, hblock, ha, haccepts, h⟩⟩
  obtain ⟨h, -⟩ | ⟨block', a', hblock', ha', -, h⟩ := h
  · exact nomatch hblock.symm.trans h
  · rw [ha.unique ha', Option.some.inj (hblock.symm.trans hblock')]
    exact h

theorem dispatch_servable {request : CoapEstRequest} (hroute : routeMessage m = .ok request)
    (hconns : s'.connections = s.connections) (htaken : s.BlockTaken cfg peer m)
    {payload : List UInt8} (hbrings : ∀ p, s.Brings cfg peer m p ↔ p = payload) :
    s.RespondsIff env peer m (s.Servable cfg env peer m)
      (s'.dispatch cfg env peer request payload) := by
  have hcall : s'.handlerCall peer request payload = s.handlerCall peer request payload := by
    unfold handlerCall
    rw [hconns]
  have hresponds := dispatch_responds cfg s' env peer request payload
  rw [routeMessage_message hroute, hcall] at hresponds
  refine hresponds.congr hconns ?_
  simp only [servable_iff hroute, hbrings, forall_eq]
  exact ⟨fun h => ⟨htaken, h⟩, fun h => h.2⟩

variable (cfg s env peer m) in
theorem serveOperation_responds :
    s.RespondsIff env peer m (s.Servable cfg env peer m) (s.serveOperation cfg env peer m) := by
  unfold serveOperation
  cases hroute : routeMessage m with
  | error e =>
    exact Responds.always (fun _ h => nomatch hroute.symm.trans h)
      (sendError_responds s env peer m e)
  | ok request =>
    dsimp only
    rw [routeMessage_message hroute]
    cases hblock : m.block1 with
    | none =>
      have hassemble : s.assemble cfg env peer m = .complete s m.payload := by rw [assemble, hblock]
      rw [hassemble]
      have htaken : s.BlockTaken cfg peer m := fun _ h => nomatch hblock.symm.trans h
      exact dispatch_servable hroute rfl htaken (brings_none hblock)
    | some block =>
      by_cases htaken : s.BlockTaken cfg peer m
      · obtain ⟨a, ha, haccepts⟩ := htaken block hblock
        obtain ⟨szx, hassemble⟩ := assemble_taken env hblock ha haccepts
        have hbrings := brings_some hblock ha haccepts
        rw [hassemble]
        cases hmore : block.more with
        | true =>
          refine Responds.always ?_
            (sendResponse_responds { s with blockAssemblers := _ } env peer m _ _ _ _)
          rw [servable_iff hroute]
          refine ⟨htaken, fun payload h => ?_⟩
          exact nomatch hmore.symm.trans ((hbrings payload).mp h).1
        | false =>
          rw [hmore] at hbrings
          rw [if_neg Bool.false_ne_true]
          refine dispatch_servable hroute ?_ htaken fun p => (hbrings p).trans (and_iff_right rfl)
          rfl
      · obtain ⟨s', e, hrejected⟩ := assemble_refused env htaken
        rw [hrejected]
        exact respondsIff_silent (fun h => htaken ((servable_iff hroute).mp h).1) rfl

theorem serve_operation (hrequest : m.code.isRequest = true) (hfirst : ¬ m.Continues) :
    s.serve cfg env peer m = s.serveOperation cfg env peer m := by
  unfold serve
  rw [if_pos hrequest]
  split
  · rfl
  · next block hsome => exact if_neg fun hpos => hfirst ⟨block, hsome, hpos⟩

variable (cfg s env peer m) in
theorem serve_responds (hrequest : m.code.isRequest = true) :
    s.RespondsIff env peer m (m.Continues ∨ s.Servable cfg env peer m)
      (s.serve cfg env peer m) := by
  by_cases hlater : m.Continues
  · refine Responds.always (.inl hlater) ?_
    obtain ⟨block, hsome, hpos⟩ := hlater
    unfold serve
    rw [if_pos hrequest, hsome]
    dsimp only
    rw [if_pos hpos]
    exact continueResponse_responds s env peer m block.num
  · rw [serve_operation hrequest hlater]
    exact (serveOperation_responds cfg s env peer m).congr rfl
      ⟨.inr, fun h => h.resolve_left hlater⟩

/-! ## process_datagram -/

variable {data : List UInt8} (hparse : CoapMessage.parse data = .ok m) (hanswerable : m.Answerable)
  (hsize : m.payload.length ≤ cfg.maxPayload)

include hparse hanswerable hsize

theorem processDatagram_exchange :
    s.processDatagram cfg env data peer = (s.reaped env).exchange cfg env peer m data := by
  have htype : ¬ (m.msgType ≠ .confirmable ∧ m.msgType ≠ .nonConfirmable) :=
    fun h => hanswerable.elim h.1 h.2
  unfold processDatagram
  dsimp only
  rw [hparse]
  dsimp only
  rw [if_neg htype, if_neg (Nat.not_lt.mpr hsize)]
  rfl

theorem processDatagram_new (hnew : (s.pruned env).exchanges.lookup (peer, m.messageId) = none) :
    s.processDatagram cfg env data peer =
      if (s.pruned env).exchanges.size < cfg.maxExchanges then
        .after .accepted (((s.pruned env).recordExchange peer m.messageId data
          env.clock.accept).serve cfg env peer m)
      else ⟨s.pruned env, [], .err (.internal "exchange capacity exhausted")⟩ := by
  rw [processDatagram_exchange hparse hanswerable hsize]
  unfold exchange deduplicate
  dsimp only
  rw [show (s.reaped env).pruneExchanges env.clock.prune = s.pruned env from rfl, hnew]
  dsimp only
  by_cases hroom : (s.pruned env).exchanges.size < cfg.maxExchanges
  · rw [if_pos hroom, if_neg (Nat.not_le.mpr hroom)]
  · rw [if_neg hroom, if_pos (Nat.not_lt.mp hroom)]

end Stages

/-- The connection of the peer is established, and encrypting and sending work. -/
def Established (s : Server) (env : Env) (peer : SocketAddr) : Prop :=
  (∃ conn, s.connections.lookup peer = some conn ∧ conn.handshakeComplete = true) ∧
    env.transmit = .ok ()

theorem sendEncoded_isOk (s : Server) (env : Env) (peer : SocketAddr) :
    (s.sendEncoded env peer).isOk = true ↔ s.Established env peer := by
  have htransmit : env.transmit.isOk = true ↔ env.transmit = .ok () := by
    cases env.transmit with
    | ok => exact ⟨fun _ => rfl, fun _ => rfl⟩
    | error e => exact ⟨nofun, nofun⟩
  unfold sendEncoded Established
  rw [← htransmit]
  cases s.connections.lookup peer with
  | none => exact ⟨nofun, nofun⟩
  | some conn =>
    cases hdone : conn.handshakeComplete with
    | false => simp [hdone, Except.isOk, Except.toBool]
    | true => simp [hdone]

/-- For all tables, a new confirmable request gets exactly one response, with its message id and
    token, if and only if responses can be sent to the peer and the request is either too large or
    finds room in the exchange table and then asks for a later block of a response, is not for an
    EST operation, or passes: its block is the one its transfer waits for, with a slot for the
    transfer, and if it brings a whole payload, the handler answers it with an error or with a
    response that is not too large. -/
theorem answered_iff (cfg : Config) (s : Server) (env : Env) (data : List UInt8) (peer : SocketAddr)
    (m : CoapMessage) (hparse : CoapMessage.parse data = .ok m)
    (hconfirmable : m.msgType = .confirmable) (hrequest : m.code.isRequest = true)
    (hnew : ∀ ex, s.exchanges.lookup (peer, m.messageId) = some ex →
      ex.time + (Config.exchangeLifetime : Int) ≤ env.clock.prune) :
    AnsweredOnce m (s.processDatagram cfg env data peer).events ↔
      s.Established env peer ∧ (m.payload.length > cfg.maxPayload ∨
        (s.pruned env).exchanges.size < cfg.maxExchanges ∧
          (m.Continues ∨ (s.reaped env).Servable cfg env peer m)) := by
  have hnone : (s.pruned env).exchanges.lookup (peer, m.messageId) = none := pruned_eq_none hnew
  rw [← sendEncoded_isOk]
  refine RespondsIff.answeredOnce_iff ?_
  by_cases hlarge : m.payload.length > cfg.maxPayload
  · refine Responds.always (.inl hlarge) ?_
    unfold processDatagram
    dsimp only
    rw [hparse]
    dsimp only
    rw [if_neg (fun h => h.1 hconfirmable), if_pos hlarge]
    exact sendError_responds (s.reapStaleEntries env.clock.reap) env peer m _
  · rw [processDatagram_new hparse (.inl hconfirmable) (Nat.not_lt.mp hlarge) hnone]
    by_cases hroom : (s.pruned env).exchanges.size < cfg.maxExchanges
    · rw [if_pos hroom]
      refine RespondsIff.after ?_ _ rfl
      refine (serve_responds cfg _ env peer m hrequest).congr rfl ?_
      exact ⟨fun h => .inr ⟨hroom, h⟩, fun h => (h.resolve_left hlarge).2⟩
    · rw [if_neg hroom]
      exact respondsIff_silent (fun h => hroom (h.resolve_left hlarge).1) rfl

/-! ## A request that is answered, and one that is not -/

namespace Sample

def connected : Server :=
  { bind with
    connections := AList.insert peer ⟨0, some cert, true, 0⟩ ∅
    opened := 1 }

def enroll : CoapMessage :=
  ⟨1, .confirmable, ⟨0, 2⟩, 7, [0xAA], [⟨11, [0x73, 0x65, 0x6E]⟩], [0x2A]⟩

def strayBlock : CoapMessage :=
  ⟨1, .confirmable, ⟨0, 2⟩, 7, [0xAA], [⟨11, [0x73, 0x65, 0x6E]⟩, ⟨27, [0x18]⟩], [0x2A]⟩

def strayBlockTwice : List Input :=
  [arrival (answering 0 [0x30, 0x00]) (post 7 (block1 0x18) [0x2A]),
    arrival (answering 1 [0x30, 0x00]) (post 7 (block1 0x18) [0x2A])]

end Sample

open Sample in
theorem answered_iff_enroll :
    AnsweredOnce enroll (connected.processDatagram config (answering 0 [0x30, 0x00])
      (post 7 [] [0x2A]) peer).events := by
  refine (answered_iff config connected (answering 0 [0x30, 0x00]) (post 7 [] [0x2A]) peer enroll
    (by decide +kernel) rfl (by decide) (fun ex hex => nomatch hex)).mpr ?_
  refine ⟨⟨⟨_, AList.lookup_insert _, rfl⟩, rfl⟩, .inr ⟨by decide +kernel, .inr ?_⟩⟩
  intro request hroute
  refine ⟨(fun block hblock => nomatch hblock), fun payload _ _ => ⟨_, rfl, fun response heq => ?_⟩⟩
  rw [← Except.ok.inj heq]
  decide

open Sample in
/-- The stray block is a new confirmable request over an established connection. Nothing is sent
    for it, and nothing for its retransmission. -/
theorem unexpected_block_gets_no_response :
    CoapMessage.parse (post 7 (block1 0x18) [0x2A]) = .ok strayBlock ∧
      strayBlock.msgType = .confirmable ∧ strayBlock.code.isRequest = true ∧
      ∃ first second, handledAt (log config strayBlockTwice) 2 = some first ∧
        handledAt (log config strayBlockTwice) 3 = some second ∧
        first.data = post 7 (block1 0x18) [0x2A] ∧ second.data = first.data ∧
        first.before.exchanges.lookup (first.peer, strayBlock.messageId) = none ∧
        first.before.Established first.env first.peer ∧
        sent first.events = [] ∧ sent second.events = [] := by
  refine ⟨by decide +kernel, rfl, by decide, ?_⟩
  have hfirst : (handledAt (log config strayBlockTwice) 2).map (fun h => (h.data,
      h.before.exchanges.lookup (h.peer, strayBlock.messageId),
      (h.before.sendEncoded h.env h.peer).isOk, sent h.events)) =
        some (post 7 (block1 0x18) [0x2A], none, true, []) := by decide +kernel
  have hsecond : (handledAt (log config strayBlockTwice) 3).map (fun h => (h.data, sent h.events)) =
      some (post 7 (block1 0x18) [0x2A], []) := by decide +kernel
  obtain ⟨first, hat, hsum⟩ := Option.map_eq_some_iff.mp hfirst
  obtain ⟨second, hat', hsum'⟩ := Option.map_eq_some_iff.mp hsecond
  simp only [Prod.mk.injEq] at hsum hsum'
  obtain ⟨hdata, hnew, hsend, hsent⟩ := hsum
  exact ⟨first, second, hat, hat', hdata, hsum'.1.trans hdata.symm, hnew,
    (sendEncoded_isOk _ _ _).mp hsend, hsent, hsum'.2⟩

end Server

end Kipuka.Coap
