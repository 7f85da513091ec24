/-
  Connections do not mix: whatever peers, handshakes, reconnects, timeouts and errors a run has, a
  message handled over a DTLS connection only meets data of that connection.
-/
import Kipuka.Coap.Run

namespace Kipuka.Coap.Server

open Generic

/-! ## Data of a connection -/

def receivedOver (conn : Nat) (log : List Entry) : List (List UInt8) :=
  log.filterMap fun e =>
    match e with
    | .handled h => if h.conn = conn then some h.data else none
    | _ => none

def payloadOf (data : List UInt8) : List UInt8 :=
  match CoapMessage.parse data with
  | .ok m => m.payload
  | _ => []

/-- The bytes are payloads of messages received over the connection, in order and each used once. -/
def CarriedOver (conn : Nat) (log : List Entry) (bytes : List UInt8) : Prop :=
  ∃ blocks : List (List UInt8), blocks.Sublist (receivedOver conn log) ∧
    bytes = blocks.flatMap payloadOf

/-- A datagram of the connection got this reply. -/
def RepliedOver (conn : Nat) (log : List Entry) (reply : Reply) (sent : Bool) : Prop :=
  ∃ h, .handled h ∈ log ∧ h.conn = conn ∧ (reply, sent) ∈ replies h.events

/-- Block 0 of the body went out over the connection, as the first block of a response for the
    key. -/
def FirstBlockOver (conn : Nat) (log : List Entry) (key : TransferKey) (body : List UInt8) : Prop :=
  ∃ bytes, RepliedOver conn log ⟨.firstBlock key body, bytes⟩ true ∧ BlockOf body 0 bytes

/-- The call has the certificate and payload bytes of the connection. -/
def CallOver (conn : Nat) (cert : ClientCertInfo) (log : List Entry) (call : HandlerCall) : Prop :=
  call.clientCert = some cert ∧ CarriedOver conn log call.payload

/-- The bytes are an error, a 2.31 Continue, or the answer of the handler to a call of the
    connection, whole or block 0 of it. -/
def MadeOver (conn : Nat) (cert : ClientCertInfo) (log : List Entry) (env : Env)
    (bytes : List UInt8) : Prop :=
  IsError bytes ∨ IsContinue bytes ∨
    ∃ call response, CallOver conn cert log call ∧ env.handle call = .ok (.ok response) ∧
      (IsResponse response bytes ∨ BlockOf response.payload 0 bytes)

section

variable {conn : Nat} {log : List Entry}

theorem receivedOver_append (conn : Nat) (log more : List Entry) :
    receivedOver conn (log ++ more) = receivedOver conn log ++ receivedOver conn more :=
  List.filterMap_append ..

variable {bytes : List UInt8}

theorem CarriedOver.mono (h : CarriedOver conn log bytes)
    (more : List Entry) : CarriedOver conn (log ++ more) bytes := by
  obtain ⟨blocks, hsub, hbytes⟩ := h
  refine ⟨blocks, ?_, hbytes⟩
  rw [receivedOver_append]
  exact hsub.trans (List.sublist_append_left _ _)

theorem carriedOver_nil (conn : Nat) (log : List Entry) : CarriedOver conn log [] :=
  ⟨[], List.nil_sublist _, rfl⟩

variable {e : Handled}

theorem CarriedOver.concat (h : CarriedOver conn log bytes)
    (hconn : e.conn = conn) {m : CoapMessage} (hparse : CoapMessage.parse e.data = .ok m) :
    CarriedOver conn (log ++ [.handled e]) (bytes ++ m.payload) := by
  obtain ⟨blocks, hsub, hbytes⟩ := h
  refine ⟨blocks ++ [e.data], ?_, ?_⟩
  · have hlast : receivedOver conn [.handled e] = [e.data] := by
      simp [receivedOver, hconn]
    rw [receivedOver_append, hlast]
    exact hsub.append_right _
  · have hpayload : payloadOf e.data = m.payload := by rw [payloadOf, hparse]
    rw [List.flatMap_append, hbytes, List.flatMap_singleton, hpayload]

variable {reply : Reply} {sent : Bool}

theorem RepliedOver.mono (h : RepliedOver conn log reply sent)
    (more : List Entry) : RepliedOver conn (log ++ more) reply sent := by
  obtain ⟨e, hmem, hconn, hreply⟩ := h
  exact ⟨e, List.mem_append_left _ hmem, hconn, hreply⟩

theorem repliedOver_last (log : List Entry) (h : (reply, sent) ∈ replies e.events) :
    RepliedOver e.conn (log ++ [.handled e]) reply sent :=
  ⟨e, List.mem_append_right _ (List.mem_singleton_self _), rfl, h⟩

theorem FirstBlockOver.mono {key : TransferKey} {body : List UInt8}
    (h : FirstBlockOver conn log key body) (more : List Entry) :
    FirstBlockOver conn (log ++ more) key body := by
  obtain ⟨bytes, hreplied, hblock⟩ := h
  exact ⟨bytes, hreplied.mono more, hblock⟩

end

/-! ## The tables -/

/-- Entries for an address with a connection in `conns` belong to that connection. -/
structure Owned (log : List Entry) (conns : Table SocketAddr DtlsConnection) (s : Server) :
    Prop where
  assemblers : AList.All (fun key e => ∀ c, conns.lookup key.peer = some c →
    CarriedOver c.number log e.1.buffer) s.blockAssemblers
  cache : AList.All (fun key cached => ∀ c, conns.lookup key.peer = some c →
    FirstBlockOver c.number log key cached.disasm.payload) s.responseCache
  exchanges : AList.All (fun k ex => ∀ c, conns.lookup k.1 = some c →
    ∀ reply, ex.response = some reply → ∃ sent, RepliedOver c.number log reply sent) s.exchanges

namespace Owned

variable {log : List Entry} {conns : Table SocketAddr DtlsConnection} {s : Server}

section

variable (h : Owned log conns s)

include h

theorem mono (more : List Entry) : Owned (log ++ more) conns s where
  assemblers := h.assemblers.imp fun _ _ hold c hc => (hold c hc).mono more
  cache := h.cache.imp fun _ _ hold c hc => (hold c hc).mono more
  exchanges := h.exchanges.imp fun _ _ hold c hc reply hreply => by
    obtain ⟨sent, hreplied⟩ := hold c hc reply hreply
    exact ⟨sent, hreplied.mono more⟩

theorem renumber (conns' : Table SocketAddr DtlsConnection)
    (hsame : ∀ p c, conns'.lookup p = some c → ∃ c', conns.lookup p = some c' ∧ c'.number = c.number) :
    Owned log conns' { s with connections := conns' } where
  assemblers := h.assemblers.imp fun key _ hold c hc => by
    obtain ⟨c', hc', hnumber⟩ := hsame _ c hc
    exact hnumber ▸ hold c' hc'
  cache := h.cache.imp fun key _ hold c hc => by
    obtain ⟨c', hc', hnumber⟩ := hsame _ c hc
    exact hnumber ▸ hold c' hc'
  exchanges := h.exchanges.imp fun key _ hold c hc => by
    obtain ⟨c', hc', hnumber⟩ := hsame _ c hc
    exact hnumber ▸ hold c' hc'

theorem reaped (env : Env) : Owned log conns (s.reaped env) :=
  ⟨h.assemblers.retain _, h.cache.retain _, h.exchanges⟩

theorem pruned (env : Env) : Owned log conns (s.pruned env) :=
  ⟨h.assemblers.retain _, h.cache.retain _, h.exchanges.retain _⟩

theorem recorded (peer : SocketAddr) (messageId : UInt16) (request : List UInt8) (now : Int) :
    Owned log conns (s.recordExchange peer messageId request now) := by
  refine ⟨h.assemblers, h.cache, h.exchanges.insert fun c hc reply hnone => ?_⟩
  exact absurd hnone.symm (Option.some_ne_none reply)

theorem purge (peer : SocketAddr) : Owned log conns (s.purge peer) :=
  ⟨h.assemblers.retain _, h.cache.retain _, h.exchanges.retain _⟩

theorem connect (peer : SocketAddr) (conn : DtlsConnection) (createdAt : Int) :
    Owned log (conns.insert peer conn) ((s.purge peer).connect peer createdAt) := by
  have hold : ∀ p c, (conns.insert peer conn).lookup p = some c → p ≠ peer →
      conns.lookup p = some c := by
    intro p c hc hp
    obtain ⟨rfl, -⟩ | ⟨-, hc⟩ := AList.lookup_of_insert hc
    · exact absurd rfl hp
    · exact hc
  constructor
  · intro key e he c hc
    obtain ⟨he, hkeep⟩ := AList.lookup_of_retain he
    exact h.assemblers key e he c (hold _ c hc (of_decide_eq_true hkeep))
  · intro key e he c hc
    obtain ⟨he, hkeep⟩ := AList.lookup_of_retain he
    exact h.cache key e he c (hold _ c hc (of_decide_eq_true hkeep))
  · intro k ex hex c hc
    obtain ⟨hex, hkeep⟩ := AList.lookup_of_retain hex
    exact h.exchanges k ex hex c (hold _ c hc (of_decide_eq_true hkeep))

end

variable {conn : DtlsConnection}

theorem stored (h : Owned log conns s) {peer : SocketAddr}
    (hconn : conns.lookup peer = some conn) {messageId : UInt16} {sent : List (Reply × Bool)}
    (hsent : ∀ p ∈ sent, RepliedOver conn.number log p.1 p.2)
    {exchanges : Table (SocketAddr × UInt16) Exchange}
    (heq : ∀ k, exchanges.lookup k = (s.exchanges.lookup k).map fun ex =>
      if k = (peer, messageId) then ex.answered sent else ex) :
    AList.All (fun k ex => ∀ c, conns.lookup k.1 = some c →
      ∀ reply, ex.response = some reply → ∃ sent, RepliedOver c.number log reply sent)
      exchanges := by
  intro k ex hex c hc reply hreply
  rw [heq, Option.map_eq_some_iff] at hex
  obtain ⟨ex', hex', hans⟩ := hex
  split at hans
  · next hk =>
    subst hk
    obtain rfl := Option.some.inj (hconn.symm.trans hc)
    rw [← hans] at hreply
    cases sent with
    | nil => exact h.exchanges _ ex' hex' conn hc reply hreply
    | cons p more =>
      rw [← Option.some.inj hreply]
      exact ⟨p.2, hsent p (List.mem_cons_self ..)⟩
  · rw [← hans] at hreply
    exact h.exchanges k ex' hex' c hc reply hreply

variable {cfg : Config}

theorem assemblerFor (h : Owned log conns s) {key : TransferKey}
    (hconn : conns.lookup key.peer = some conn) {a : BlockAssembler}
    (ha : s.AssemblerFor cfg key a) : CarriedOver conn.number log a.buffer := by
  obtain ⟨t, ha⟩ | ⟨-, -, rfl⟩ := ha
  · exact h.assemblers key (a, t) ha conn hconn
  · exact carriedOver_nil _ _

theorem effect (h : Owned log conns s) {e : Handled}
    (hconn : conns.lookup e.peer = some conn) (hnumber : e.conn = conn.number) {m : CoapMessage}
    (hparse : CoapMessage.parse e.data = .ok m) {r : Step}
    (heffect : s.Effect cfg e.env e.peer m r) (hevents : replies e.events = replies r.events) :
    Owned (log ++ [.handled e]) conns r.server := by
  have hgrown := h.mono [.handled e]
  have hreplies : ∀ p ∈ replies r.events,
      RepliedOver conn.number (log ++ [.handled e]) p.1 p.2 := by
    intro p hp
    rw [← hnumber]
    exact repliedOver_last log (by rw [hevents]; exact hp)
  constructor
  · intro key entry hentry c hc
    obtain hold | ⟨rfl, -, a, block, ha, -, -, rfl⟩ := heffect.assemblers key entry hentry
    · exact hgrown.assemblers key entry hold c hc
    · obtain rfl := Option.some.inj (hconn.symm.trans hc)
      have hcarried := h.assemblerFor hconn ha
      by_cases haccepts : a.Accepts block m.payload
      · have hprocess :=
          processBlock_next a block m.payload haccepts.running haccepts.next haccepts.size
        rw [hprocess]
        exact hcarried.concat hnumber hparse
      · obtain ⟨err, hprocess⟩ := processBlock_refused haccepts
        rw [hprocess]
        exact hcarried.mono _
  · intro key cached hcached c hc
    obtain hold | ⟨rfl, ⟨cached', hold, hsame⟩ | ⟨bytes, hmem⟩⟩ := heffect.cache key cached hcached
    · exact hgrown.cache key cached hold c hc
    · rw [← hsame]
      exact hgrown.cache _ cached' hold c hc
    · obtain rfl := Option.some.inj (hconn.symm.trans hc)
      obtain ⟨-, hblock, -⟩ := heffect.replied _ hmem
      exact ⟨bytes, hreplies _ hmem, hblock⟩
  · exact hgrown.stored hconn hreplies heffect.exchanges

end Owned

/-! ## Runs -/

/-- The reply is made from what came over the connection, or it is a later block of a body whose
    block 0 went out over it. -/
def ReplyOver (before : List Entry) (h : Handled) (cert : ClientCertInfo) (reply : Reply) : Prop :=
  MadeOver h.conn cert (before ++ [.handled h]) h.env reply.bytes ∨
    ∃ key body num, FirstBlockOver h.conn before key body ∧ BlockOf body num reply.bytes

/-- A message handled with the log `before` behind it: calls and replies are those of the
    connection, and a stored response was made for a message of the connection. -/
structure OverOneConnection (before : List Entry) (h : Handled) : Prop where
  served : ∃ cert, .established h.conn cert ∈ before ∧
    (∀ call ∈ calls h.events, CallOver h.conn cert (before ++ [.handled h]) call) ∧
    ∀ p ∈ replies h.events, ReplyOver before h cert p.1
  replayed : ∀ reply sent, .replayed reply sent ∈ h.events →
    ∃ sent, RepliedOver h.conn before reply sent

def EntryIsolated (before : List Entry) (e : Entry) : Prop :=
  ∀ h, e = .handled h → OverOneConnection before h

structure Isolated (log : List Entry) (s : Server) : Prop where
  numbered : Numbered log s
  owned : Owned log s.connections s
  entries : Throughout EntryIsolated log

variable {s : Server} {cfg : Config} {e : Handled} {conn : DtlsConnection} {cert : ClientCertInfo}
  {m : CoapMessage} {r : Step}

theorem Called.callOver {log : List Entry} {conns : Table SocketAddr DtlsConnection}
    (h : Owned log conns s) (hconns : s.connections = conns)
    (hconn : conns.lookup e.peer = some conn) (hnumber : e.conn = conn.number)
    (hcert : conn.clientCert = some cert) (hparse : CoapMessage.parse e.data = .ok m)
    {call : HandlerCall} (hcalled : s.Called cfg e.peer m call) :
    CallOver e.conn cert (log ++ [.handled e]) call := by
  obtain ⟨-, hclient, hpayload⟩ := hcalled
  rw [hconns, hconn] at hclient
  refine ⟨hclient.trans hcert, ?_⟩
  rw [hnumber]
  obtain ⟨-, hwhole⟩ | ⟨block, a, -, ha, -, -, hpart⟩ := hpayload
  · rw [hwhole]
    exact (carriedOver_nil conn.number log).concat hnumber hparse
  · rw [hpart]
    exact (h.assemblerFor hconn ha).concat hnumber hparse

theorem Replied.replyOver {log : List Entry} {conns : Table SocketAddr DtlsConnection}
    (h : Owned log conns s) (hconn : conns.lookup e.peer = some conn)
    (hnumber : e.conn = conn.number)
    (hcalls : ∀ call, s.Called cfg e.peer m call →
      CallOver e.conn cert (log ++ [.handled e]) call)
    {cache : Table TransferKey CachedResponse} {reply : Reply} {sent : Bool}
    (hreplied : s.Replied cfg e.env e.peer m cache reply sent) : ReplyOver log e cert reply := by
  obtain ⟨content, bytes⟩ := reply
  cases content with
  | plain =>
    obtain herror | ⟨response, ⟨call, hcalled, hhandle⟩, hresponse⟩ := hreplied
    · exact .inl (.inl herror)
    · exact .inl (.inr (.inr ⟨call, response, hcalls call hcalled, hhandle, .inl hresponse⟩))
  | proceed => exact .inl (.inr (.inl hreplied.2.2))
  | firstBlock key body =>
    obtain ⟨-, hblock, ⟨response, ⟨call, hcalled, hhandle⟩, rfl, -⟩, -⟩ := hreplied
    exact .inl (.inr (.inr ⟨call, response, hcalls call hcalled, hhandle, .inr hblock⟩))
  | nextBlock key body num =>
    obtain ⟨rfl, -, hblock, cached, hcached, rfl⟩ := hreplied
    refine .inr ⟨transferKey e.peer m, cached.disasm.payload, num, ?_, hblock⟩
    rw [hnumber]
    exact h.cache _ cached hcached conn hconn

theorem OverOneConnection.of_effect {log : List Entry}
    {conns : Table SocketAddr DtlsConnection} (h : Owned log conns s)
    (hconns : s.connections = conns)
    (hconn : conns.lookup e.peer = some conn) (hnumber : e.conn = conn.number)
    (hcert : conn.clientCert = some cert) (hestablished : .established conn.number cert ∈ log)
    (hparse : CoapMessage.parse e.data = .ok m) (heffect : s.Effect cfg e.env e.peer m r)
    (hevents : e.events = r.events ∨ e.events = .accepted :: r.events) :
    OverOneConnection log e := by
  have hcalls : calls e.events = calls r.events := by
    obtain hevents | hevents := hevents <;> rw [hevents]
    rfl
  have hreplies : replies e.events = replies r.events := by
    obtain hevents | hevents := hevents <;> rw [hevents]
    rfl
  have hover : ∀ call, s.Called cfg e.peer m call →
      CallOver e.conn cert (log ++ [.handled e]) call :=
    fun call => Called.callOver h hconns hconn hnumber hcert hparse
  refine ⟨⟨cert, hnumber ▸ hestablished, fun call hcall => ?_, fun p hp => ?_⟩,
    fun reply sent hmem => ?_⟩
  · exact hover call (heffect.called call (hcalls ▸ hcall))
  · exact Replied.replyOver h hconn hnumber hover (heffect.replied p (hreplies ▸ hp))
  · have hnone := heffect.noReplay reply sent
    obtain hevents | hevents := hevents
    · rw [hevents] at hmem
      exact absurd hmem hnone
    · rw [hevents] at hmem
      obtain heq | hmem := List.mem_cons.mp hmem
      · exact nomatch heq
      · exact absurd hmem hnone

theorem OverOneConnection.of_unserved {log : List Entry}
    (hestablished : .established e.conn cert ∈ log) (hcalls : calls e.events = [])
    (hreplies : replies e.events = [])
    (hreplayed : ∀ reply sent, .replayed reply sent ∈ e.events →
      ∃ sent, RepliedOver e.conn log reply sent) : OverOneConnection log e := by
  refine ⟨⟨cert, hestablished, fun call hcall => ?_, fun p hp => ?_⟩, hreplayed⟩
  · rw [hcalls] at hcall
    cases hcall
  · rw [hreplies] at hp
    cases hp

variable {peer : SocketAddr}

theorem Isolated.handle {log : List Entry} (h : Isolated log s)
    (hconn : s.connections.lookup peer = some conn)
    (hdone : conn.handshakeComplete = true) (data : List UInt8) (env : Env) :
    Isolated (log ++ [.handled ⟨conn.number, peer, data, env, s,
        (s.processDatagram cfg env data peer).events⟩])
      (s.processDatagram cfg env data peer).server := by
  obtain ⟨cert, hcert, hestablished⟩ := h.numbered.established peer conn hconn hdone
  have hnumbered : Numbered _ (s.processDatagram cfg env data peer).server :=
    h.numbered.handle hconn data env
  have hconns := processDatagram_connections cfg s env data peer
  have hhandling := processDatagram_handling cfg s env data peer
  generalize s.processDatagram cfg env data peer = r at hnumbered hconns hhandling ⊢
  suffices hboth : Owned (log ++ [.handled ⟨conn.number, peer, data, env, s, r.events⟩])
      s.connections r.server ∧ OverOneConnection log ⟨conn.number, peer, data, env, s, r.events⟩ by
    refine ⟨hnumbered, hconns ▸ hboth.1, h.entries.concat fun h' heq => ?_⟩
    rw [← Entry.handled.inj heq]
    exact hboth.2
  have hgrown := h.owned.mono [.handled ⟨conn.number, peer, data, env, s, r.events⟩]
  cases hhandling with
  | ignored hwhy res =>
    refine ⟨hgrown.reaped env, .of_unserved hestablished rfl rfl fun reply sent hmem => ?_⟩
    cases hmem
  | unanswered hparse hwhy res =>
    refine ⟨hgrown.pruned env, .of_unserved hestablished rfl rfl fun reply sent hmem => ?_⟩
    cases hmem
  | @replayed m ex reply' hparse hex hrequest hresponse =>
    refine ⟨hgrown.pruned env, .of_unserved hestablished rfl rfl fun reply sent hmem => ?_⟩
    rw [(Event.replayed.inj (List.mem_singleton.mp hmem)).1]
    exact (h.owned.pruned env).exchanges _ _ hex conn hconn reply' hresponse
  | @oversized m hparse hlarge =>
    have heffect := (Kept.refl cfg (s.reaped env) env peer m).sendError
      (.payloadTooLarge m.payload.length cfg.maxPayload)
    exact ⟨(h.owned.reaped env).effect hconn rfl hparse heffect rfl,
      .of_effect (h.owned.reaped env) rfl hconn rfl hcert hestablished hparse heffect (.inl rfl)⟩
  | @accepted m r hparse hanswerable hsize hnew hroom heffect =>
    have hrecorded := (h.owned.pruned env).recorded peer m.messageId data env.clock.accept
    have howned : Owned (log ++ [.handled ⟨conn.number, peer, data, env, s, .accepted :: r.events⟩])
        s.connections r.server := hrecorded.effect hconn rfl hparse heffect rfl
    exact ⟨howned,
      .of_effect hrecorded rfl hconn rfl hcert hestablished hparse heffect (.inr rfl)⟩

theorem isolated_preserved (cfg : Config) : Preserved cfg Isolated where
  bind := ⟨(Numbered.preserved cfg).bind, ⟨AList.all_empty _, AList.all_empty _, AList.all_empty _⟩,
    throughout_nil _⟩
  drop := fun log s conns h hsub =>
    ⟨h.numbered.drop hsub, h.owned.renumber conns fun p c hc => ⟨c, hsub p c hc, rfl⟩, h.entries⟩
  purge := fun log s peer h hnone =>
    ⟨(Numbered.preserved cfg).purge log s peer h.numbered hnone, h.owned.purge peer, h.entries⟩
  connect := fun log s peer createdAt h _ =>
    ⟨h.numbered.connect peer createdAt, (h.owned.connect peer _ createdAt).mono _,
      h.entries.concat fun _ heq => nomatch heq⟩
  establish := fun log s peer conn cert h hconn hopen => by
    refine ⟨h.numbered.establish hconn hopen cert, (h.owned.renumber _ fun p c hc => ?_).mono _,
      h.entries.concat fun _ heq => nomatch heq⟩
    obtain ⟨rfl, rfl⟩ | ⟨-, hc⟩ := AList.lookup_of_insert hc
    · exact ⟨conn, hconn, rfl⟩
    · exact ⟨c, hc, rfl⟩
  handle := fun log s peer conn data env h hconn hdone => h.handle hconn hdone data env

/-- In every run, a message is handled over a connection that was opened for its peer and whose
    handshake ended with one certificate. The handler is called with that certificate and with
    payload bytes received over that connection. The bytes of a reply are an error, a Continue, the
    handler's answer to a call of that connection, or a later block of a body whose block 0 went
    out over that connection, and a stored reply was made for a message of that connection. -/
theorem handled_over_one_connection (cfg : Config) (inputs : List Input) (before after : List Entry)
    (h : Handled) (hlog : log cfg inputs = before ++ .handled h :: after) :
    (∃ cert, .established h.conn cert ∈ before ∧
        (∀ cert', .established h.conn cert' ∈ log cfg inputs → cert' = cert) ∧
        (∀ call ∈ calls h.events, CallOver h.conn cert (before ++ [.handled h]) call) ∧
        ∀ p ∈ replies h.events, ReplyOver before h cert p.1) ∧
      ∀ reply sent, .replayed reply sent ∈ h.events →
        ∃ sent, RepliedOver h.conn before reply sent := by
  have hisolated := (isolated_preserved cfg).run inputs
  obtain ⟨⟨cert, hcert, hserved⟩, hreplayed⟩ :=
    hisolated.entries before (.handled h) after hlog h rfl
  refine ⟨⟨cert, hcert, fun cert' hcert' => ?_, hserved⟩, hreplayed⟩
  refine hisolated.numbered.certOnce h.conn cert' cert hcert' ?_
  rw [hlog]
  exact List.mem_append_left _ hcert

open Sample in
def twoBlocks : List Input :=
  [arrival (answering 0 [0x30, 0x00]) (post 1 (block1 0x08) (List.replicate 16 0x2A)),
    arrival (answering 1 [0x30, 0x00]) (post 2 (block1 0x10) [0x2B])]

theorem handled_over_one_connection_twoBlocks :
    ∃ h, handledAt (log Sample.config twoBlocks) 3 = some h ∧
      (calls h.events).map HandlerCall.payload = [List.replicate 16 0x2A ++ [0x2B]] ∧
      ∃ cert, .established h.conn cert ∈ (log Sample.config twoBlocks).take 3 ∧
        ∀ call ∈ calls h.events, call.clientCert = some cert := by
  have hpayload : (handledAt (log Sample.config twoBlocks) 3).map
      (fun h => (calls h.events).map HandlerCall.payload) =
        some [List.replicate 16 0x2A ++ [0x2B]] := by decide +kernel
  obtain ⟨h, hat, hcalls⟩ := Option.map_eq_some_iff.mp hpayload
  obtain ⟨⟨cert, hcert, -, hcalled, -⟩, -⟩ :=
    handled_over_one_connection Sample.config twoBlocks _ _ h (log_split hat)
  exact ⟨h, hat, hcalls, cert, hcert, fun call hcall => (hcalled call hcall).1⟩

end Kipuka.Coap.Server
