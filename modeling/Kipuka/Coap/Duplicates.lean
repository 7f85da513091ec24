/-
  Message deduplication over whole runs: what happens to a message that uses the message id of an
  exchange whose lifetime is not over.
-/
import Kipuka.Coap.Run

namespace Kipuka.Coap

open Generic Server

/-! ## Handled messages -/

variable {h : Handled} {m : CoapMessage} {id : UInt16}

namespace Handled

def messageId (h : Handled) : Option UInt16 :=
  match CoapMessage.parse h.data with
  | .ok m => some m.messageId
  | _ => none

/-- The datagram was taken for a new exchange. -/
def Accepted (h : Handled) : Prop := .accepted ∈ h.events

/-- The lifetime of its exchange is over. -/
def ExpiredAt (h : Handled) (now : Int) : Prop :=
  h.env.clock.accept + (Config.exchangeLifetime : Int) ≤ now

/-- The message is not one that is too large and has the id of a live exchange. -/
def NoOversizedReuse (cfg : Config) (h : Handled) : Prop :=
  ∀ m ex, CoapMessage.parse h.data = .ok m → m.payload.length > cfg.maxPayload →
    h.before.exchanges.lookup (h.peer, m.messageId) = some ex →
    ex.time + (Config.exchangeLifetime : Int) ≤ h.env.clock.reap

theorem messageId_eq (hparse : CoapMessage.parse h.data = .ok m) :
    h.messageId = some m.messageId := by rw [messageId, hparse]

theorem exists_parse (hid : h.messageId = some id) :
    ∃ m, CoapMessage.parse h.data = .ok m ∧ m.messageId = id := by
  unfold messageId at hid
  split at hid
  · next m hparse => exact ⟨m, hparse, Option.some.inj hid⟩
  · exact nomatch hid

end Handled

/-- The readings of the clock do not go back from one message to a later one. -/
def Chronological (log : List Entry) : Prop :=
  (log.filterMap handledOf).Pairwise fun a b => a.env.clock.store ≤ b.env.clock.reap

instance (log : List Entry) : Decidable (Chronological log) :=
  inferInstanceAs (Decidable (List.Pairwise _ _))

theorem Chronological.of_append {log more : List Entry} (h : Chronological (log ++ more)) :
    Chronological log := by
  unfold Chronological at h
  rw [List.filterMap_append, List.pairwise_append] at h
  exact h.1

theorem Chronological.last {log : List Entry} {last : Handled}
    (hclock : Chronological (log ++ [.handled last])) (hmem : .handled h ∈ log) :
    h.env.clock.store ≤ last.env.clock.reap := by
  unfold Chronological at hclock
  rw [List.filterMap_append, List.pairwise_append] at hclock
  exact hclock.2.2 h (List.mem_filterMap.mpr ⟨_, hmem, rfl⟩) last (List.mem_singleton_self _)

namespace Server

section Preservation

variable {cfg : Config} {log : List Entry} {s : Server} {env : Env} {data : List UInt8}
  {peer : SocketAddr}

/-! ## The exchange table in one step -/

variable {k : SocketAddr × UInt16} {ex : Exchange}

theorem pruned_kept (env : Env) (hex : s.exchanges.lookup k = some ex) :
    (s.pruned env).exchanges.lookup k = some ex ∨
      ex.time + (Config.exchangeLifetime : Int) ≤ env.clock.prune := by
  by_cases hlive : env.clock.prune < ex.time + (Config.exchangeLifetime : Int)
  · exact .inl (by rw [pruned_lookup, hex, Option.filter_some, if_pos (decide_eq_true hlive)])
  · exact .inr (Int.not_lt.mp hlive)

variable {r : Step}

/-- What a message does to an exchange: nothing, or its lifetime is over, or the message is too
    large and its answer takes the place of the stored response. -/
theorem Handling.exchange_kept (h : Handling cfg s env data peer r)
    (hex : s.exchanges.lookup k = some ex) :
    r.server.exchanges.lookup k = some ex ∨
      ex.time + (Config.exchangeLifetime : Int) ≤ env.clock.prune ∨
      ∃ m response, CoapMessage.parse data = .ok m ∧ m.payload.length > cfg.maxPayload ∧
        k = (peer, m.messageId) ∧
        r.server.exchanges.lookup k = some { ex with response := response } := by
  have hpruned : (s.pruned env).exchanges.lookup k = some ex ∨
      ex.time + (Config.exchangeLifetime : Int) ≤ env.clock.prune ∨
      ∃ m response, CoapMessage.parse data = .ok m ∧ m.payload.length > cfg.maxPayload ∧
        k = (peer, m.messageId) ∧
        (s.pruned env).exchanges.lookup k = some { ex with response := response } :=
    (pruned_kept env hex).imp_right .inl
  cases h with
  | ignored hwhy res => exact .inl hex
  | unanswered | replayed => exact hpruned
  | @oversized m hparse hlarge =>
    have hlookup : ((s.reaped env).sendError env peer m
        (.payloadTooLarge m.payload.length cfg.maxPayload)).server.exchanges.lookup k = _ :=
      storeResponse_lookup (s.reaped env) peer m.messageId _ k
    rw [show (s.reaped env).exchanges.lookup k = some ex from hex, Option.map_some] at hlookup
    by_cases hk : k = (peer, m.messageId)
    · rw [if_pos hk] at hlookup
      exact .inr (.inr ⟨m, _, hparse, hlarge, hk, hlookup⟩)
    · rw [if_neg hk] at hlookup
      exact .inl hlookup
  | @accepted m r hparse hanswerable hsize hnew hroom heffect =>
    obtain hkept | hover := pruned_kept env hex
    · have hk : k ≠ (peer, m.messageId) := by
        rintro rfl
        rw [hnew] at hkept
        exact nomatch hkept
      have hlookup := heffect.exchanges k
      rw [show ((s.pruned env).recordExchange peer m.messageId data
        env.clock.accept).exchanges.lookup k = some ex from
          (AList.lookup_insert_ne hk).trans hkept, Option.map_some, if_neg hk] at hlookup
      exact .inl hlookup
    · exact .inr (.inl hover)

theorem Effect.recorded {request : List UInt8} {now : Int}
    (h : (s.recordExchange peer m.messageId request now).Effect cfg env peer m r) :
    r.server.exchanges.lookup (peer, m.messageId) =
      some ⟨request, (replies r.events).head?.map Prod.fst, now⟩ := by
  rw [h.exchanges, show (s.recordExchange peer m.messageId request now).exchanges.lookup
    (peer, m.messageId) = some ⟨request, none, now⟩ from AList.lookup_insert _, Option.map_some,
    if_pos rfl]
  cases replies r.events with
  | nil => rfl
  | cons p more => rfl

theorem Handling.accepted_recorded (h : Handling cfg s env data peer r)
    (haccepted : Event.accepted ∈ r.events) :
    ∃ m, CoapMessage.parse data = .ok m ∧ (m.Answerable ∧ m.payload.length ≤ cfg.maxPayload) ∧
      r.server.exchanges.lookup (peer, m.messageId) =
        some ⟨data, (replies r.events).head?.map Prod.fst, env.clock.accept⟩ := by
  cases h with
  | ignored | unanswered => exact nomatch haccepted
  | replayed | oversized => exact nomatch List.mem_singleton.mp haccepted
  | @accepted m r hparse hanswerable hsize hnew hroom heffect =>
    exact ⟨m, hparse, ⟨hanswerable, hsize⟩, heffect.recorded⟩

theorem Handling.shape (h : Handling cfg s env data peer r) :
    (calls r.events).length ≤ 1 ∧ (replies r.events).length ≤ 1 ∧
      (calls r.events ≠ [] → .accepted ∈ r.events) := by
  cases h with
  | ignored | unanswered | replayed => exact ⟨Nat.zero_le _, Nat.zero_le _, fun h => absurd rfl h⟩
  | oversized hparse hlarge => exact ⟨Nat.zero_le _, Nat.le_refl _, fun h => absurd rfl h⟩
  | accepted hparse hanswerable hsize hnew hroom heffect =>
    exact ⟨heffect.call_le_one, heffect.reply_le_one, fun _ => List.mem_cons_self ..⟩

theorem Handling.taken (h : Handling cfg s env data peer r)
    (hparse : CoapMessage.parse data = .ok m)
    (hex : (s.pruned env).exchanges.lookup (peer, m.messageId) = some ex) :
    calls r.events = [] ∧
      (m.Answerable → m.payload.length ≤ cfg.maxPayload → ex.request = data →
        ∀ reply, ex.response = some reply →
          r.events = [.replayed reply ((s.pruned env).sendEncoded env peer).isOk]) := by
  cases h with
  | ignored hwhy res => exact ⟨rfl, fun hanswerable => absurd hanswerable (hwhy m hparse)⟩
  | @oversized m' hparse' hlarge =>
    obtain rfl := Outcome.ok.inj (hparse.symm.trans hparse')
    exact ⟨rfl, fun _ hsize => absurd hlarge (Nat.not_lt.mpr hsize)⟩
  | @unanswered m' hparse' hwhy res =>
    obtain rfl := Outcome.ok.inj (hparse.symm.trans hparse')
    refine ⟨rfl, fun _ _ hrequest reply hreply => ?_⟩
    obtain ⟨ex', hex', hother | hnone⟩ | ⟨hnone, -⟩ := hwhy
    · obtain rfl := Option.some.inj (hex.symm.trans hex')
      exact absurd hrequest hother
    · obtain rfl := Option.some.inj (hex.symm.trans hex')
      exact nomatch hreply.symm.trans hnone
    · exact nomatch hnone.symm.trans hex
  | @replayed m' ex' reply' hparse' hex' hrequest' hresponse' =>
    obtain rfl := Outcome.ok.inj (hparse.symm.trans hparse')
    obtain rfl := Option.some.inj (hex.symm.trans hex')
    refine ⟨rfl, fun _ _ _ reply hreply => ?_⟩
    rw [Option.some.inj (hreply.symm.trans hresponse')]
  | @accepted m' r hparse' hanswerable hsize hnew hroom heffect =>
    obtain rfl := Outcome.ok.inj (hparse.symm.trans hparse')
    exact nomatch hnew.symm.trans hex

/-! ## The exchange table over a run -/

def responseOf (h : Handled) : Option Reply := (replies h.events).head?.map Prod.fst

/-- The entry of an accepted message, its response unchanged if no oversized message reused its
    id. -/
def Remembered (cfg : Config) (log : List Entry) (s : Server) (h : Handled) (id : UInt16) : Prop :=
  ∃ response, s.exchanges.lookup (h.peer, id) = some ⟨h.data, response, h.env.clock.accept⟩ ∧
    ((∀ h', .handled h' ∈ log → h'.NoOversizedReuse cfg) → response = responseOf h)

def Forgotten (log : List Entry) (h : Handled) : Prop :=
  ∃ h', .handled h' ∈ log ∧ h.ExpiredAt h'.env.clock.store

/-- Every accepted message of a present connection is remembered, or its lifetime is over. -/
def Recorded (cfg : Config) (log : List Entry) (s : Server) : Prop :=
  ∀ h id, .handled h ∈ log → h.Accepted → h.messageId = some id →
    (∃ c, s.connections.lookup h.peer = some c ∧ c.number = h.conn) →
    Remembered cfg log s h id ∨ Forgotten log h

theorem Forgotten.mono (hover : Forgotten log h) (more : List Entry) :
    Forgotten (log ++ more) h := by
  obtain ⟨h', hmem, hexpired⟩ := hover
  exact ⟨h', List.mem_append_left _ hmem, hexpired⟩

variable {s' : Server}

theorem Remembered.mono (hrem : Remembered cfg log s h id) (more : List Entry)
    (hsame : ∀ ex, s.exchanges.lookup (h.peer, id) = some ex →
      s'.exchanges.lookup (h.peer, id) = some ex) : Remembered cfg (log ++ more) s' h id := by
  obtain ⟨response, hex, hresponse⟩ := hrem
  refine ⟨response, hsame _ hex, fun hno => hresponse fun h' hmem => ?_⟩
  exact hno h' (List.mem_append_left _ hmem)

theorem Recorded.connections (hrec : Recorded cfg log s) (e : Entry) (he : handledOf e = none)
    (hsame : ∀ h : Handled, h.conn < s.opened →
      (∃ c, s'.connections.lookup h.peer = some c ∧ c.number = h.conn) →
      (∃ c, s.connections.lookup h.peer = some c ∧ c.number = h.conn) ∧
        ∀ id ex, s.exchanges.lookup (h.peer, id) = some ex →
          s'.exchanges.lookup (h.peer, id) = some ex)
    (hnumbered : Numbered log s) : Recorded cfg (log ++ [e]) s' := by
  intro h id hmem haccepted hid hconn
  have hold : .handled h ∈ log := by
    obtain hmem | hmem := List.mem_append.mp hmem
    · exact hmem
    · rw [← List.mem_singleton.mp hmem] at he
      exact nomatch he
  obtain ⟨hconn', hkept⟩ := hsame h (hnumbered.handledKnown h hold) hconn
  obtain hrem | hover := hrec h id hold haccepted hid hconn'
  · exact .inl (hrem.mono [e] (hkept id))
  · exact .inr (hover.mono [e])

theorem Recorded.handle (hrec : Recorded cfg log s) (conn : DtlsConnection)
    (hhandling : Handling cfg s env data peer r) (hconns : r.server.connections = s.connections) :
    Recorded cfg (log ++ [.handled ⟨conn.number, peer, data, env, s, r.events⟩]) r.server := by
  intro h id hmem haccepted hid hpresent
  rw [hconns] at hpresent
  have hprune := env.clock.prune_le_accept
  have haccept := env.clock.accept_le_touch
  have htouch := env.clock.touch_le_store
  have hreap := env.clock.reap_le_prune
  obtain hold | hnew := List.mem_append.mp hmem
  · obtain hrem | hover := hrec h id hold haccepted hid hpresent
    · obtain ⟨response, hex, hresponse⟩ := hrem
      obtain hkept | hover | ⟨m, response', hparse, hlarge, hk, hkept⟩ :=
        hhandling.exchange_kept hex
      · exact .inl (Remembered.mono ⟨response, hex, hresponse⟩ _ fun ex hex' => by
          rw [← Option.some.inj (hex.symm.trans hex')]
          exact hkept)
      · refine .inr ⟨_, List.mem_append_right _ (List.mem_singleton_self _), ?_⟩
        unfold Handled.ExpiredAt
        dsimp only at hover ⊢
        omega
      · -- the stored response is lost, which the condition allows only when the time is over
        have hlast : Entry.handled ⟨conn.number, peer, data, env, s, r.events⟩ ∈
          log ++ [.handled ⟨conn.number, peer, data, env, s, r.events⟩] :=
            List.mem_append_right _ (List.mem_singleton_self _)
        by_cases hno : (⟨conn.number, peer, data, env, s, r.events⟩ : Handled).NoOversizedReuse cfg
        · have hover := hno m _ hparse hlarge (hk ▸ hex)
          refine .inr ⟨_, hlast, ?_⟩
          unfold Handled.ExpiredAt
          dsimp only at hover ⊢
          omega
        · exact .inl ⟨response', hkept, fun hall => absurd (hall _ hlast) hno⟩
    · exact .inr (hover.mono _)
  · have hsame := Entry.handled.inj (List.mem_singleton.mp hnew)
    subst hsame
    obtain ⟨m, hparse, -, hrecorded⟩ := hhandling.accepted_recorded haccepted
    rw [Handled.messageId_eq hparse] at hid
    rw [← Option.some.inj hid]
    exact .inl ⟨_, hrecorded, fun _ => rfl⟩

theorem Recorded.connect (hrec : Recorded cfg log s) (hnumbered : Numbered log s)
    (peer : SocketAddr) (createdAt : Int) :
    Recorded cfg (log ++ [.opened s.opened peer]) ((s.purge peer).connect peer createdAt) := by
  refine hrec.connections _ rfl (fun h hknown ⟨c, hc, hnumber⟩ => ?_) hnumbered
  obtain ⟨-, rfl⟩ | ⟨hp, hc⟩ := AList.lookup_of_insert hc
  · exact absurd hnumber.symm (Nat.ne_of_lt hknown)
  · refine ⟨⟨c, hc, hnumber⟩, fun id ex hex => ?_⟩
    refine (AList.lookup_retain _ _ _).trans ?_
    rw [hex, Option.filter_some, if_pos (decide_eq_true hp)]

variable {conn : DtlsConnection}

theorem Recorded.establish (hrec : Recorded cfg log s) (hnumbered : Numbered log s)
    (hconn : s.connections.lookup peer = some conn) (cert : ClientCertInfo) :
    Recorded cfg (log ++ [.established conn.number cert])
      (s.setConnection peer (conn.establish cert)) := by
  refine hrec.connections _ rfl (fun h _ ⟨c, hc, hnumber⟩ => ⟨?_, fun id ex hex => hex⟩) hnumbered
  obtain ⟨rfl, rfl⟩ | ⟨-, hc⟩ := AList.lookup_of_insert hc
  · exact ⟨conn, hconn, hnumber⟩
  · exact ⟨c, hc, hnumber⟩

theorem Recorded.drop (hrec : Recorded cfg log s) {conns : Table SocketAddr DtlsConnection}
    (hsub : ∀ p c, conns.lookup p = some c → s.connections.lookup p = some c) :
    Recorded cfg log { s with connections := conns } := by
  intro h id hmem haccepted hid ⟨c, hc, hnumber⟩
  exact hrec h id hmem haccepted hid ⟨c, hsub _ c hc, hnumber⟩

theorem Recorded.purge (hrec : Recorded cfg log s)
    (hnone : s.connections.lookup peer = none) : Recorded cfg log (s.purge peer) := by
  intro h id hmem haccepted hid ⟨c, hc, hnumber⟩
  have hp : h.peer ≠ peer := by
    rintro rfl
    exact nomatch hnone.symm.trans hc
  obtain ⟨response, hex, hresponse⟩ | hover := hrec h id hmem haccepted hid ⟨c, hc, hnumber⟩
  · refine .inl ⟨response, (AList.lookup_retain _ _ _).trans ?_, hresponse⟩
    rw [hex, Option.filter_some, if_pos (decide_eq_true hp)]
  · exact .inr hover

/-! ## Messages in a run -/

/-- A message and what was handled before it: it makes at most one call and one response, calls
    happen in new exchanges, and a message with the id of a live exchange of its connection is not
    served, but answered as before if it is the same. -/
structure OncePerExchange (cfg : Config) (before : List Entry) (h : Handled) : Prop where
  call_le_one : (calls h.events).length ≤ 1
  reply_le_one : (replies h.events).length ≤ 1
  called : calls h.events ≠ [] → h.Accepted
  proper : h.Accepted → ∃ m, CoapMessage.parse h.data = .ok m ∧ m.Answerable ∧
    m.payload.length ≤ cfg.maxPayload
  again : ∀ first id, .handled first ∈ before → first.Accepted → first.conn = h.conn →
    first.peer = h.peer → first.messageId = some id → h.messageId = some id →
    Chronological (before ++ [.handled h]) → ¬ first.ExpiredAt h.env.clock.prune →
    calls h.events = [] ∧
      ((∀ h', .handled h' ∈ before → h'.NoOversizedReuse cfg) → h.data = first.data →
        ∀ reply, responseOf first = some reply →
          h.events = [.replayed reply h.env.transmit.isOk])

def EntryOnce (cfg : Config) (before : List Entry) (e : Entry) : Prop :=
  ∀ h, e = .handled h → OncePerExchange cfg before h

structure Deduplicating (cfg : Config) (log : List Entry) (s : Server) : Prop where
  numbered : Numbered log s
  recorded : Recorded cfg log s
  entries : Throughout (EntryOnce cfg) log

theorem Recorded.found (hrec : Recorded cfg log s) {first : Handled} (hmem : .handled first ∈ log)
    (haccepted : first.Accepted) (hid : first.messageId = some id)
    (hconn : ∃ c, s.connections.lookup first.peer = some c ∧ c.number = first.conn)
    (hclock : Chronological (log ++ [.handled h])) (hlive : ¬ first.ExpiredAt h.env.clock.prune) :
    ∃ response, (s.pruned h.env).exchanges.lookup (first.peer, id) =
        some ⟨first.data, response, first.env.clock.accept⟩ ∧
      ((∀ h', .handled h' ∈ log → h'.NoOversizedReuse cfg) → response = responseOf first) := by
  obtain ⟨response, hex, hresponse⟩ | ⟨h', hmem', hover⟩ := hrec first id hmem haccepted hid hconn
  · refine ⟨response, ?_, hresponse⟩
    obtain hkept | hover := pruned_kept h.env hex
    · exact hkept
    · exact absurd hover hlive
  · have hle := hclock.last hmem'
    have hreap := h.env.clock.reap_le_prune
    unfold Handled.ExpiredAt at hover hlive
    omega

theorem sendEncoded_complete (hconn : s.connections.lookup peer = some conn)
    (hdone : conn.handshakeComplete = true) : s.sendEncoded env peer = env.transmit := by
  unfold sendEncoded
  rw [hconn]
  exact if_pos hdone

theorem Deduplicating.once (hdedup : Deduplicating cfg log s)
    (hconn : s.connections.lookup peer = some conn) (hdone : conn.handshakeComplete = true)
    (hhandling : Handling cfg s env data peer r) :
    OncePerExchange cfg log ⟨conn.number, peer, data, env, s, r.events⟩ := by
  obtain ⟨hcalls, hreplies, hcalled⟩ := hhandling.shape
  refine ⟨hcalls, hreplies, hcalled, fun haccepted => ?_, ?_⟩
  · obtain ⟨m, hparse, hproper, -⟩ := hhandling.accepted_recorded haccepted
    exact ⟨m, hparse, hproper⟩
  · intro first id hmem haccepted hsame hpeer hfirst hsecond hclock hlive
    obtain ⟨m, hparse, hid⟩ := Handled.exists_parse hsecond
    obtain ⟨response, hex, hresponse⟩ := hdedup.recorded.found hmem haccepted hfirst
      ⟨conn, hpeer ▸ hconn, hsame.symm⟩ hclock hlive
    rw [hpeer, ← hid] at hex
    obtain ⟨hnone, hreplayed⟩ := hhandling.taken hparse hex
    refine ⟨hnone, fun hno hdata reply hreply => ?_⟩
    -- the original was accepted, so its duplicate is neither ignored nor too large
    obtain ⟨before, hentry⟩ := hdedup.entries.of_mem hmem
    obtain ⟨m', hparse', hanswerable, hsize⟩ := (hentry first rfl).proper haccepted
    rw [← hdata] at hparse'
    obtain rfl := Outcome.ok.inj (hparse.symm.trans hparse')
    have hsend : (s.pruned env).sendEncoded env peer = env.transmit :=
      sendEncoded_complete hconn hdone
    rw [← hsend]
    exact hreplayed hanswerable hsize hdata.symm reply ((hresponse hno).trans hreply)

theorem deduplicating_preserved (cfg : Config) : Preserved cfg (Deduplicating cfg) where
  bind := ⟨(Numbered.preserved cfg).bind, (fun _ _ hmem => nomatch hmem), throughout_nil _⟩
  drop := fun log s conns h hsub => ⟨h.numbered.drop hsub, h.recorded.drop hsub, h.entries⟩
  purge := fun log s peer h hnone =>
    ⟨(Numbered.preserved cfg).purge log s peer h.numbered hnone, h.recorded.purge hnone, h.entries⟩
  connect := fun log s peer createdAt h _ =>
    ⟨h.numbered.connect peer createdAt, h.recorded.connect h.numbered peer createdAt,
      h.entries.concat fun _ heq => nomatch heq⟩
  establish := fun log s peer conn cert h hconn hopen =>
    ⟨h.numbered.establish hconn hopen cert, h.recorded.establish h.numbered hconn cert,
      h.entries.concat fun _ heq => nomatch heq⟩
  handle := fun log s peer conn data env h hconn hdone => by
    have hhandling := processDatagram_handling cfg s env data peer
    refine ⟨h.numbered.handle hconn data env,
      h.recorded.handle conn hhandling (processDatagram_connections cfg s env data peer),
      h.entries.concat fun h' heq => ?_⟩
    rw [← Entry.handled.inj heq]
    exact h.once hconn hdone hhandling

end Preservation

/-- In every run, of two messages of one connection with the same message id, the second before the
    lifetime of the first is over: if the first was accepted, in particular if it reached the
    handler, the second does not reach the handler. If no message of the run that is too large has
    the id of a live exchange and the second is a duplicate of the first, the response made for the
    first is sent again and nothing else happens. -/
theorem exchange_served_once (cfg : Config) (inputs : List Input)
    (hclock : Chronological (log cfg inputs)) (before between after : List Entry)
    (first second : Handled)
    (hlog : log cfg inputs =
      before ++ .handled first :: between ++ .handled second :: after)
    (hconn : second.conn = first.conn) (hpeer : second.peer = first.peer) (id : UInt16)
    (hfirst : first.messageId = some id) (hsecond : second.messageId = some id)
    (hlive : ¬ first.ExpiredAt second.env.clock.prune) :
    ((calls first.events).length ≤ 1 ∧ (calls first.events ≠ [] → calls second.events = [])) ∧
      (first.Accepted → second.data ≠ first.data → calls second.events = []) ∧
      ((∀ h, .handled h ∈ log cfg inputs → h.NoOversizedReuse cfg) → first.Accepted →
        second.data = first.data → ∀ reply sent, (reply, sent) ∈ replies first.events →
          second.events = [.replayed reply second.env.transmit.isOk]) := by
  have hentries := ((deduplicating_preserved cfg).run inputs).entries
  have hmem : .handled first ∈ before ++ .handled first :: between :=
    List.mem_append_right _ (List.mem_cons_self ..)
  have hone := hentries before (.handled first) (between ++ .handled second :: after)
    (by rw [hlog, List.append_assoc, List.cons_append]) first rfl
  have htwo := hentries _ (.handled second) after hlog second rfl
  have hclock' : Chronological (before ++ .handled first :: between ++ [.handled second]) := by
    rw [hlog, List.append_cons] at hclock
    exact hclock.of_append
  have hagain := fun haccepted => htwo.again first id hmem haccepted hconn.symm hpeer.symm hfirst
    hsecond hclock' hlive
  refine ⟨⟨hone.call_le_one, fun hcalled => (hagain (hone.called hcalled)).1⟩,
    fun haccepted _ => (hagain haccepted).1, fun hno haccepted hdata reply sent hreply => ?_⟩
  refine (hagain haccepted).2 (fun h hin => hno h ?_) hdata reply ?_
  · rw [hlog]
    exact List.mem_append_left _ hin
  · -- there is one response, so it is the first one
    unfold responseOf
    match replies first.events, hone.reply_le_one, hreply with
    | [p], _, hreply =>
      rw [← List.mem_singleton.mp hreply]
      rfl

/-! ## A retransmission, and a reused message id -/

namespace Sample

def retransmitted : List Input :=
  [arrival (answering 0 [0x30, 0x00]) (post 7 [] [0x2A]),
    arrival (answering 1 [0x30, 0x00]) (post 7 [] [0x2A])]

def created : Reply :=
  ⟨.plain, [0x61, 0x41, 0x00, 0x07, 0xAA, 0xC2, 0x01, 0x19, 0xFF, 0x30, 0x00]⟩

def summary (h : Handled) : (Nat × SocketAddr × List UInt8) × (Int × Int) × List Event :=
  ((h.conn, h.peer, h.data), (h.env.clock.prune, h.env.clock.accept), h.events)

end Sample

open Sample in
/-- The retransmission is answered with the certificate, and the handler is not called again. -/
theorem exchange_served_once_retransmitted :
    ∃ first second, handledAt (log config retransmitted) 2 = some first ∧
      handledAt (log config retransmitted) 3 = some second ∧
      (calls first.events).length = 1 ∧ calls second.events = [] ∧
      second.events = [.replayed created second.env.transmit.isOk] := by
  have hfirst : (handledAt (log config retransmitted) 2).map summary = some
      ((0, peer, post 7 [] [0x2A]), (0, 0), [.accepted,
        .called ⟨.simpleEnroll, none, [0x2A], none, some cert⟩, .replied created true]) := by
    decide +kernel
  have hsecond : (handledAt (log config retransmitted) 3).map (fun h => (summary h).1) = some
      (0, peer, post 7 [] [0x2A]) := by decide +kernel
  have hprune : (handledAt (log config retransmitted) 3).map (·.env.clock.prune) = some 1 := by
    decide +kernel
  have hsmall : ((log config retransmitted).filterMap handledOf).all (fun h =>
      match CoapMessage.parse h.data with
      | .ok m => m.payload.length ≤ config.maxPayload
      | _ => true) = true := by decide +kernel
  obtain ⟨first, hat, hsum⟩ := Option.map_eq_some_iff.mp hfirst
  obtain ⟨second, hat', hsum'⟩ := Option.map_eq_some_iff.mp hsecond
  rw [hat', Option.map_some, Option.some.injEq] at hprune
  simp only [summary, Prod.mk.injEq] at hsum hsum'
  obtain ⟨⟨hconn, hpeer, hdata⟩, ⟨-, haccept⟩, hevents⟩ := hsum
  obtain ⟨hconn', hpeer', hdata'⟩ := hsum'
  have hno : ∀ h, .handled h ∈ log config retransmitted → h.NoOversizedReuse config := by
    intro h hmem m ex hparse hlarge
    have h := List.all_eq_true.mp hsmall h (List.mem_filterMap.mpr ⟨_, hmem, rfl⟩)
    rw [hparse] at h
    exact absurd hlarge (Nat.not_lt.mpr (of_decide_eq_true h))
  have hlive : ¬ first.ExpiredAt second.env.clock.prune := by
    rw [Handled.ExpiredAt, haccept, hprune]
    decide
  obtain ⟨⟨hle, honce⟩, -, hduplicate⟩ := exchange_served_once config retransmitted
    (by decide +kernel) _ _ _ first second (log_split_two (by decide) hat hat')
    (hconn'.trans hconn.symm) (hpeer'.trans hpeer.symm) 7
    (by rw [Handled.messageId, hdata]; decide +kernel)
    (by rw [Handled.messageId, hdata']; decide +kernel) hlive
  rw [hevents] at hle honce hduplicate
  refine ⟨first, second, hat, hat', by rw [hevents]; rfl, honce (List.cons_ne_nil _ _), ?_⟩
  refine hduplicate hno ?_ (hdata'.trans hdata.symm) created true (List.mem_singleton_self _)
  rw [Handled.Accepted, hevents]
  exact List.mem_cons_self ..

namespace Sample

def oversizedBetween : List Input :=
  [arrival (answering 0 [0x30, 0x00]) (post 7 [] [0x2A]),
    arrival (answering 1 [0x30, 0x00]) (post 7 [] (List.replicate 65 0x2B)),
    arrival (answering 2 [0x30, 0x00]) (post 7 [] [0x2A])]

def tooLarge : Reply :=
  ⟨.plain, [0x61, 0x8D, 0x00, 0x07, 0xAA, 0xFF] ++
    asBytes "Payload too large: 65 bytes exceeds maximum 64 bytes"⟩

end Sample

open Sample in
/-- The request was answered with its certificate; its retransmission, two nanoseconds later and
    over the same connection, is answered with the error for another message. -/
theorem duplicate_gets_wrong_response :
    Chronological (log config oversizedBetween) ∧
      ∃ first second, handledAt (log config oversizedBetween) 2 = some first ∧
        handledAt (log config oversizedBetween) 4 = some second ∧
        (second.conn, second.peer, second.data) = (first.conn, first.peer, first.data) ∧
        ¬ first.ExpiredAt second.env.clock.prune ∧ first.Accepted ∧
        replies first.events = [(created, true)] ∧ second.events = [.replayed tooLarge true] ∧
        tooLarge.bytes ≠ created.bytes := by
  refine ⟨by decide +kernel, ?_⟩
  have hfirst : (handledAt (log config oversizedBetween) 2).map summary = some
      ((0, peer, post 7 [] [0x2A]), (0, 0), [.accepted,
        .called ⟨.simpleEnroll, none, [0x2A], none, some cert⟩, .replied created true]) := by
    decide +kernel
  have hsecond : (handledAt (log config oversizedBetween) 4).map summary = some
      ((0, peer, post 7 [] [0x2A]), (2, 2), [.replayed tooLarge true]) := by decide +kernel
  obtain ⟨first, hat, hsum⟩ := Option.map_eq_some_iff.mp hfirst
  obtain ⟨second, hat', hsum'⟩ := Option.map_eq_some_iff.mp hsecond
  simp only [summary, Prod.mk.injEq] at hsum hsum'
  obtain ⟨⟨hconn, hpeer, hdata⟩, ⟨-, haccept⟩, hevents⟩ := hsum
  obtain ⟨⟨hconn', hpeer', hdata'⟩, ⟨hprune, -⟩, hevents'⟩ := hsum'
  refine ⟨first, second, hat, hat', ?_, ?_, ?_, ?_, hevents', by decide +kernel⟩
  · rw [hconn, hpeer, hdata, hconn', hpeer', hdata']
  · rw [Handled.ExpiredAt, haccept, hprune]
    decide
  · rw [Handled.Accepted, hevents]
    exact List.mem_cons_self ..
  · rw [hevents]
    rfl

end Server

end Kipuka.Coap
