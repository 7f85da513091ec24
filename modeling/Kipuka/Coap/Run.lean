/-
  The main loop of the server (`CoapDtlsServer::run` in `crates/kipuka-coap/src/server.rs`) as a
  machine: an input is a turn of the loop, a tick of the maintenance timer or a UDP datagram with
  what DTLS makes of it.
-/
import Kipuka.Coap.Handling
import Kipuka.Generic.Machine

namespace Kipuka.Coap

open Generic

/-! ## Inputs and log -/

/-- A UDP datagram and what is decided outside the server while it is handled. -/
structure Arrival where
  peer : SocketAddr
  /-- The clock when connections are swept. -/
  now : Int
  /-- `DtlsConnection::new`: its creation time, or its error. -/
  created : Except CoapError Int
  ssl : SslCalls
  /-- Sending the packets of the handshake. -/
  flushed : Except CoapError Unit
  /-- The surroundings of the messages in the datagram, in order. -/
  envs : Nat → Env

inductive Input where
  /-- The maintenance timer; a peer whose `handle_timeout` fails is given by `timedOut`. -/
  | tick (now : Int) (timedOut : SocketAddr → Bool)
  | recvFailed
  | datagram (arrival : Arrival)

structure Handled where
  conn : Nat
  peer : SocketAddr
  data : List UInt8
  env : Env
  before : Server
  events : List Event

inductive Entry where
  | opened (conn : Nat) (peer : SocketAddr)
  | established (conn : Nat) (cert : ClientCertInfo)
  | handled (h : Handled)

structure Turn where
  server : Server
  entries : List Entry
  result : Outcome CoapError Unit

/-! ## Turns -/

def handshakeTimeout : Nat := fromSecs 10

namespace Server

/-- A tick drops connections whose handshake takes too long and those that time out. -/
def maintain (s : Server) (now : Int) (timedOut : SocketAddr → Bool) : Server :=
  { s with connections := s.connections.retain fun peer c =>
      (c.handshakeComplete || decide (durationSince now c.createdAt ≤ handshakeTimeout)) &&
        !timedOut peer }

section

variable (cfg : Config)

def sweep (s : Server) (now : Int) : Server :=
  { s with connections := s.connections.retain fun _ c =>
      decide (durationSince now c.createdAt <
        if c.handshakeComplete then cfg.sessionTimeout else handshakeTimeout) }

def purge (s : Server) (peer : SocketAddr) : Server :=
  { s with
    blockAssemblers := s.blockAssemblers.retain fun key _ => decide (key.peer ≠ peer)
    responseCache := s.responseCache.retain fun key _ => decide (key.peer ≠ peer)
    exchanges := s.exchanges.retain fun key _ => decide (key.1 ≠ peer) }

def setConnection (s : Server) (peer : SocketAddr) (conn : DtlsConnection) : Server :=
  { s with connections := s.connections.insert peer conn }

def connect (s : Server) (peer : SocketAddr) (createdAt : Int) : Server :=
  { s.setConnection peer (.new s.opened createdAt) with opened := s.opened + 1 }

def messages (conn : Nat) (peer : SocketAddr) : Machine Server (List UInt8 × Env) Entry where
  step s i :=
    let step := s.processDatagram cfg i.2 i.1 peer
    (step.server, [.handled ⟨conn, peer, i.1, i.2, s, step.events⟩])

def receivePacket (s : Server) (conn : DtlsConnection) (a : Arrival) : Turn :=
  match conn.receive a.ssl with
  | (.error _, _) => ⟨{ s with connections := s.connections.erase a.peer }, [], .ok ()⟩
  | (.ok incoming, conn') =>
    let s := s.setConnection a.peer conn'
    let ended :=
      if conn.handshakeComplete = conn'.handshakeComplete then []
      else conn'.clientCert.toList.map fun cert => .established conn.number cert
    match a.flushed with
    | .error e => ⟨s, ended, .err e⟩
    | .ok () =>
      let (s, out) := (messages cfg conn.number a.peer).run s
        (incoming.mapIdx fun i data => (data, a.envs i))
      ⟨s, ended ++ out, .ok ()⟩

/-- A datagram from an address without a connection opens one, if there is room. -/
def openConnection (s : Server) (a : Arrival) : Turn :=
  if s.connections.size ≥ cfg.maxSessions then ⟨s, [], .ok ()⟩
  else
    let s := s.purge a.peer
    match a.created with
    | .error e => ⟨s, [], .err e⟩
    | .ok createdAt =>
      let turn := (s.connect a.peer createdAt).receivePacket cfg (.new s.opened createdAt) a
      { turn with entries := .opened s.opened a.peer :: turn.entries }

def turn (s : Server) : Input → Turn
  | .tick now timedOut => ⟨s.maintain now timedOut, [], .ok ()⟩
  | .recvFailed => ⟨s, [], .ok ()⟩
  | .datagram a =>
    let s := s.sweep cfg a.now
    match s.connections.lookup a.peer with
    | some conn => s.receivePacket cfg conn a
    | none => s.openConnection cfg a

def machine : Machine Server Input Entry where
  step s i :=
    let turn := s.turn cfg i
    (turn.server, turn.entries)

def log (inputs : List Input) : List Entry := ((machine cfg).run .bind inputs).2

/-- The server after some inputs, from its start. -/
def Reachable (s : Server) : Prop := ∃ inputs, s = ((machine cfg).run .bind inputs).1

end

/-! ## The invariant rule -/

theorem Handling.keeps_connections {cfg : Config} {s : Server} {env : Env} {data : List UInt8}
    {peer : SocketAddr} {r : Step} (h : Handling cfg s env data peer r) :
    r.server.connections = s.connections ∧ r.server.opened = s.opened := by
  cases h with
  | ignored | unanswered | replayed => exact ⟨rfl, rfl⟩
  | oversized hparse hlarge => exact ⟨storeResponse_connections .., storeResponse_opened ..⟩
  | accepted hparse hanswerable hsize hnew hroom heffect =>
    exact ⟨heffect.connections, heffect.opened⟩

theorem processDatagram_connections (cfg : Config) (s : Server) (env : Env) (data : List UInt8)
    (peer : SocketAddr) :
    (s.processDatagram cfg env data peer).server.connections = s.connections :=
  (processDatagram_handling cfg s env data peer).keeps_connections.1

/-- What keeps `I`, a statement about the log and the tables: dropping connections, making room for
    a new connection and opening it, ending a handshake, and handling a message. -/
structure Preserved (cfg : Config) (I : List Entry → Server → Prop) : Prop where
  bind : I [] .bind
  drop : ∀ log s (conns : Table SocketAddr DtlsConnection), I log s →
    (∀ p c, conns.lookup p = some c → s.connections.lookup p = some c) →
    I log { s with connections := conns }
  purge : ∀ log s peer, I log s → s.connections.lookup peer = none → I log (s.purge peer)
  connect : ∀ log s peer createdAt, I log s → s.connections.lookup peer = none →
    I (log ++ [.opened s.opened peer]) ((s.purge peer).connect peer createdAt)
  establish : ∀ log s peer conn cert, I log s → s.connections.lookup peer = some conn →
    conn.handshakeComplete = false →
    I (log ++ [.established conn.number cert]) (s.setConnection peer (conn.establish cert))
  handle : ∀ log s peer conn data env, I log s → s.connections.lookup peer = some conn →
    conn.handshakeComplete = true →
    I (log ++ [.handled ⟨conn.number, peer, data, env, s,
        (s.processDatagram cfg env data peer).events⟩])
      (s.processDatagram cfg env data peer).server

namespace Preserved

variable {cfg : Config} {I : List Entry → Server → Prop}
  {peer : SocketAddr} {conn : DtlsConnection} {s : Server}

theorem messages_run (h : Preserved cfg I)
    (hdone : conn.handshakeComplete = true) (incoming : List (List UInt8 × Env)) {log : List Entry}
    (hI : I log s) (hconn : s.connections.lookup peer = some conn) :
    I (log ++ ((messages cfg conn.number peer).run s incoming).2)
      ((messages cfg conn.number peer).run s incoming).1 := by
  refine (Machine.run_invariant (messages cfg conn.number peer)
    (I := fun log s => I log s ∧ s.connections.lookup peer = some conn) ?_ incoming ⟨hI, hconn⟩).1
  intro log s i hs
  refine ⟨h.handle log s peer conn i.1 i.2 hs.1 hs.2 hdone, ?_⟩
  show (s.processDatagram cfg i.2 i.1 peer).server.connections.lookup peer = some conn
  rw [processDatagram_connections]
  exact hs.2

theorem setConnection_same (h : Preserved cfg I) {log : List Entry}
    (hI : I log s) (hconn : s.connections.lookup peer = some conn) :
    I log (s.setConnection peer conn) := by
  refine h.drop log s _ hI fun p c hc => ?_
  obtain ⟨rfl, rfl⟩ | ⟨-, hc⟩ := AList.lookup_of_insert hc
  · exact hconn
  · exact hc

variable {a : Arrival}

section

variable {log : List Entry} (h : Preserved cfg I) (hI : I log s)

include h hI

theorem flush (hconn : s.connections.lookup a.peer = some conn) (incoming : List (List UInt8 × Env))
    (hquiet : conn.handshakeComplete = false → incoming = []) :
    I (log ++ ((messages cfg conn.number a.peer).run s incoming).2)
      ((messages cfg conn.number a.peer).run s incoming).1 := by
  cases hdone : conn.handshakeComplete with
  | true => exact h.messages_run hdone incoming hI hconn
  | false =>
    rw [hquiet hdone, Machine.run_nil, List.append_nil]
    exact hI

theorem receivePacket (hconn : s.connections.lookup a.peer = some conn) :
    I (log ++ (s.receivePacket cfg conn a).entries) (s.receivePacket cfg conn a).server := by
  unfold Server.receivePacket
  split
  · rw [List.append_nil]
    exact h.drop log s _ hI fun p c hc => (AList.lookup_of_erase hc).2
  · next incoming conn' hreceive =>
    dsimp only
    have hback : (s.setConnection a.peer conn').connections.lookup a.peer = some conn' :=
      AList.lookup_insert _
    obtain ⟨hsame, hquiet⟩ | ⟨hopen, cert, hestablished⟩ := DtlsConnection.receive_ok hreceive
    · subst hsame
      rw [if_pos rfl]
      have hI' := h.setConnection_same hI hconn
      split
      · rw [List.append_nil]
        exact hI'
      · rw [List.nil_append]
        refine h.flush hI' hback _ fun hopen => ?_
        rw [hquiet hopen]
        rfl
    · subst hestablished
      rw [if_neg (by rw [hopen]; nofun)]
      have hI' := h.establish log s a.peer conn cert hI hconn hopen
      split
      · exact hI'
      · rw [← List.append_assoc]
        exact h.flush hI' hback _ nofun

theorem openConnection (hnone : s.connections.lookup a.peer = none) :
    I (log ++ (s.openConnection cfg a).entries) (s.openConnection cfg a).server := by
  unfold Server.openConnection
  split
  · rw [List.append_nil]
    exact hI
  · dsimp only
    split
    · rw [List.append_nil]
      exact h.purge log s a.peer hI hnone
    · next createdAt _ =>
      have hI' := h.connect log s a.peer createdAt hI hnone
      have hpacket := h.receivePacket hI' (AList.lookup_insert _)
      rw [List.append_assoc] at hpacket
      exact hpacket

theorem turn (i : Input) : I (log ++ (s.turn cfg i).entries) (s.turn cfg i).server := by
  cases i with
  | tick now timedOut =>
    refine (List.append_nil log).symm ▸ h.drop log s _ hI fun p c hc => ?_
    exact (AList.lookup_of_retain hc).1
  | recvFailed => exact (List.append_nil log).symm ▸ hI
  | datagram a =>
    have hswept : I log (s.sweep cfg a.now) :=
      h.drop log s _ hI fun p c hc => (AList.lookup_of_retain hc).1
    unfold Server.turn
    dsimp only
    split
    · next conn hconn => exact h.receivePacket hswept hconn
    · next hnone => exact h.openConnection hswept hnone

end

theorem run (h : Preserved cfg I) (inputs : List Input) :
    I (log cfg inputs) ((machine cfg).run .bind inputs).1 :=
  Machine.run_invariant (machine cfg) (I := I) (fun _ _ i hI => h.turn hI i) inputs h.bind

end Preserved

/-! ## Connections by number -/

def opening : Entry → Option Nat
  | .opened conn _ => some conn
  | _ => none

/-- Connections are numbered in the order they are opened. The number of a present connection is
    that of its address, no two present connections share one, and the handshake of a connection
    ends at most once. -/
structure Numbered (log : List Entry) (s : Server) : Prop where
  openings : log.filterMap opening = List.range s.opened
  opened : ∀ p c, s.connections.lookup p = some c → .opened c.number p ∈ log
  distinct : ∀ p p' c c', s.connections.lookup p = some c → s.connections.lookup p' = some c' →
    c.number = c'.number → p = p'
  established : ∀ p c, s.connections.lookup p = some c → c.handshakeComplete = true →
    ∃ cert, c.clientCert = some cert ∧ .established c.number cert ∈ log
  pending : ∀ p c, s.connections.lookup p = some c → c.handshakeComplete = false →
    ∀ cert, .established c.number cert ∉ log
  certOnce : ∀ n cert cert', .established n cert ∈ log → .established n cert' ∈ log → cert = cert'
  certKnown : ∀ n cert, .established n cert ∈ log → n < s.opened
  handledKnown : ∀ h, .handled h ∈ log → h.conn < s.opened

namespace Numbered

variable {log : List Entry} {s : Server}

theorem mem_of_mem_snoc {e e' : Entry} (h : e ∈ log ++ [e']) (hne : e ≠ e') : e ∈ log :=
  (List.mem_append.mp h).resolve_right fun hmem => hne (List.mem_singleton.mp hmem)

theorem known (h : Numbered log s) {n : Nat} {p : SocketAddr} (hmem : .opened n p ∈ log) :
    n < s.opened := by
  have hn : n ∈ log.filterMap opening := List.mem_filterMap.mpr ⟨_, hmem, rfl⟩
  rw [h.openings] at hn
  exact List.mem_range.mp hn

theorem drop (h : Numbered log s) {conns : Table SocketAddr DtlsConnection}
    (hsub : ∀ p c, conns.lookup p = some c → s.connections.lookup p = some c) :
    Numbered log { s with connections := conns } where
  openings := h.openings
  opened := fun p c hc => h.opened p c (hsub p c hc)
  distinct := fun p p' c c' hc hc' => h.distinct p p' c c' (hsub p c hc) (hsub p' c' hc')
  established := fun p c hc => h.established p c (hsub p c hc)
  pending := fun p c hc => h.pending p c (hsub p c hc)
  certOnce := h.certOnce
  certKnown := h.certKnown
  handledKnown := h.handledKnown

theorem connect (h : Numbered log s) (peer : SocketAddr) (createdAt : Int) :
    Numbered (log ++ [.opened s.opened peer]) ((s.purge peer).connect peer createdAt) := by
  have hlookup : ∀ p c, ((s.purge peer).connect peer createdAt).connections.lookup p = some c →
      (p = peer ∧ c = .new s.opened createdAt) ∨ (p ≠ peer ∧ s.connections.lookup p = some c) :=
    fun _ _ => AList.lookup_of_insert
  have hless : ∀ p c, s.connections.lookup p = some c → c.number < s.opened :=
    fun p c hc => h.known (h.opened p c hc)
  have hold : ∀ n cert, Entry.established n cert ∈ log ++ [.opened s.opened peer] →
      Entry.established n cert ∈ log :=
    fun _ _ hmem => mem_of_mem_snoc hmem (by simp)
  refine ⟨?_, ?_, ?_, ?_, ?_, ?_, ?_, ?_⟩
  · rw [List.filterMap_append, h.openings]
    exact List.range_succ.symm
  · intro p c hc
    obtain ⟨rfl, rfl⟩ | ⟨-, hc⟩ := hlookup p c hc
    · exact List.mem_append_right _ (List.mem_singleton_self _)
    · exact List.mem_append_left _ (h.opened p c hc)
  · intro p p' c c' hc hc' hsame
    obtain ⟨rfl, rfl⟩ | ⟨-, hc⟩ := hlookup p c hc
    · obtain ⟨rfl, -⟩ | ⟨-, hc'⟩ := hlookup p' c' hc'
      · rfl
      · exact absurd hsame.symm (Nat.ne_of_lt (hless p' c' hc'))
    · obtain ⟨-, rfl⟩ | ⟨-, hc'⟩ := hlookup p' c' hc'
      · exact absurd hsame (Nat.ne_of_lt (hless p c hc))
      · exact h.distinct p p' c c' hc hc' hsame
  · intro p c hc hdone
    obtain ⟨-, rfl⟩ | ⟨-, hc⟩ := hlookup p c hc
    · exact nomatch hdone
    · obtain ⟨cert, hcert, hmem⟩ := h.established p c hc hdone
      exact ⟨cert, hcert, List.mem_append_left _ hmem⟩
  · intro p c hc hopen cert hmem
    obtain ⟨-, rfl⟩ | ⟨-, hc⟩ := hlookup p c hc
    · exact Nat.lt_irrefl _ (h.certKnown _ _ (hold _ _ hmem))
    · exact h.pending p c hc hopen cert (hold _ _ hmem)
  · intro n cert cert' hmem hmem'
    exact h.certOnce n cert cert' (hold _ _ hmem) (hold _ _ hmem')
  · intro n cert hmem
    exact Nat.lt_succ_of_lt (h.certKnown n cert (hold _ _ hmem))
  · intro e hmem
    exact Nat.lt_succ_of_lt (h.handledKnown e (mem_of_mem_snoc hmem (by simp)))

variable {peer : SocketAddr} {conn : DtlsConnection}

section

variable (h : Numbered log s) (hconn : s.connections.lookup peer = some conn)

include h hconn

theorem establish (hopen : conn.handshakeComplete = false) (cert : ClientCertInfo) :
    Numbered (log ++ [.established conn.number cert])
      (s.setConnection peer (conn.establish cert)) := by
  have hlookup : ∀ p c, (s.setConnection peer (conn.establish cert)).connections.lookup p =
      some c → (p = peer ∧ c = conn.establish cert) ∨
        (p ≠ peer ∧ s.connections.lookup p = some c) :=
    fun _ _ => AList.lookup_of_insert
  have hsame : ∀ p c, (s.setConnection peer (conn.establish cert)).connections.lookup p = some c →
      ∃ c', s.connections.lookup p = some c' ∧ c'.number = c.number := by
    intro p c hc
    obtain ⟨rfl, rfl⟩ | ⟨-, hc⟩ := hlookup p c hc
    · exact ⟨conn, hconn, rfl⟩
    · exact ⟨c, hc, rfl⟩
  have hcases : ∀ n c, Entry.established n c ∈ log ++ [.established conn.number cert] →
      Entry.established n c ∈ log ∨ n = conn.number ∧ c = cert := by
    intro n c hmem
    obtain hmem | hmem := List.mem_append.mp hmem
    · exact .inl hmem
    · cases List.mem_singleton.mp hmem
      exact .inr ⟨rfl, rfl⟩
  have hfirst := h.pending peer conn hconn hopen
  refine ⟨?_, ?_, ?_, ?_, ?_, ?_, ?_, ?_⟩
  · rw [List.filterMap_append, h.openings]
    exact List.append_nil _
  · intro p c hc
    obtain ⟨c', hc', hnumber⟩ := hsame p c hc
    rw [← hnumber]
    exact List.mem_append_left _ (h.opened p c' hc')
  · intro p p' c c' hc hc' hnumber
    obtain ⟨d, hd, hdn⟩ := hsame p c hc
    obtain ⟨d', hd', hdn'⟩ := hsame p' c' hc'
    exact h.distinct p p' d d' hd hd' (by rw [hdn, hdn', hnumber])
  · intro p c hc hdone
    obtain ⟨rfl, rfl⟩ | ⟨-, hc⟩ := hlookup p c hc
    · exact ⟨cert, rfl, List.mem_append_right _ (List.mem_singleton_self _)⟩
    · obtain ⟨cert', hcert, hmem⟩ := h.established p c hc hdone
      exact ⟨cert', hcert, List.mem_append_left _ hmem⟩
  · intro p c hc hopen' cert' hmem
    obtain ⟨-, rfl⟩ | ⟨hp, hc⟩ := hlookup p c hc
    · exact nomatch hopen'
    · obtain hmem | ⟨hnumber, -⟩ := hcases _ _ hmem
      · exact h.pending p c hc hopen' cert' hmem
      · exact hp (h.distinct p peer c conn hc hconn hnumber)
  · intro n c c' hmem hmem'
    obtain hin | ⟨rfl, rfl⟩ := hcases n c hmem
    · obtain hin' | ⟨rfl, -⟩ := hcases n c' hmem'
      · exact h.certOnce n c c' hin hin'
      · exact absurd hin (hfirst c)
    · obtain hin' | ⟨-, rfl⟩ := hcases _ c' hmem'
      · exact absurd hin' (hfirst c')
      · rfl
  · intro n c hmem
    obtain hmem | ⟨rfl, -⟩ := hcases _ _ hmem
    · exact h.certKnown n c hmem
    · exact h.known (h.opened peer conn hconn)
  · intro e hmem
    exact h.handledKnown e (mem_of_mem_snoc hmem (by simp))

theorem handle {cfg : Config} (data : List UInt8) (env : Env) :
    Numbered (log ++ [.handled ⟨conn.number, peer, data, env, s,
        (s.processDatagram cfg env data peer).events⟩])
      (s.processDatagram cfg env data peer).server := by
  obtain ⟨hconns, hopened⟩ := (processDatagram_handling cfg s env data peer).keeps_connections
  generalize (s.processDatagram cfg env data peer).events = events
  generalize (s.processDatagram cfg env data peer).server = s' at hconns hopened
  have hold : ∀ n cert, Entry.established n cert ∈
      log ++ [.handled ⟨conn.number, peer, data, env, s, events⟩] →
        Entry.established n cert ∈ log :=
    fun _ _ hmem => mem_of_mem_snoc hmem (by simp)
  refine ⟨?_, ?_, ?_, ?_, ?_, ?_, ?_, ?_⟩
  · rw [List.filterMap_append, h.openings, hopened]
    exact List.append_nil _
  · intro p c hc
    rw [hconns] at hc
    exact List.mem_append_left _ (h.opened p c hc)
  · intro p p' c c' hc hc'
    rw [hconns] at hc hc'
    exact h.distinct p p' c c' hc hc'
  · intro p c hc hdone
    rw [hconns] at hc
    obtain ⟨cert, hcert, hmem⟩ := h.established p c hc hdone
    exact ⟨cert, hcert, List.mem_append_left _ hmem⟩
  · intro p c hc hopen cert hmem
    rw [hconns] at hc
    exact h.pending p c hc hopen cert (hold _ _ hmem)
  · intro n cert cert' hmem hmem'
    exact h.certOnce n cert cert' (hold _ _ hmem) (hold _ _ hmem')
  · intro n cert hmem
    rw [hopened]
    exact h.certKnown n cert (hold _ _ hmem)
  · intro e hmem
    rw [hopened]
    obtain hmem | hmem := List.mem_append.mp hmem
    · exact h.handledKnown e hmem
    · rw [Entry.handled.inj (List.mem_singleton.mp hmem)]
      exact h.known (h.opened peer conn hconn)

end

theorem preserved (cfg : Config) : Preserved cfg Numbered where
  bind := by
    refine ⟨rfl, ?_, ?_, ?_, ?_, ?_, ?_, ?_⟩
    all_goals simp [Server.bind]
  drop := fun _ _ _ h hsub => h.drop hsub
  purge := fun _ s _ h _ =>
    ⟨h.openings, h.opened, h.distinct, h.established, h.pending, h.certOnce, h.certKnown,
      h.handledKnown⟩
  connect := fun _ _ peer createdAt h _ => h.connect peer createdAt
  establish := fun _ _ _ _ cert h hconn hopen => h.establish hconn hopen cert
  handle := fun _ _ _ _ data env h hconn _ => h.handle hconn data env

end Numbered

/-! ## Entries by position -/

def handledOf : Entry → Option Handled
  | .handled h => some h
  | _ => none

def handledAt (log : List Entry) (i : Nat) : Option Handled := log[i]?.bind handledOf

variable {i : Nat}

theorem log_split {log : List Entry} {h : Handled} (hi : handledAt log i = some h) :
    log = log.take i ++ .handled h :: log.drop (i + 1) := by
  obtain ⟨e, he, hof⟩ := Option.bind_eq_some_iff.mp hi
  obtain ⟨hlt, rfl⟩ := List.getElem?_eq_some_iff.mp he
  have hentry : log[i] = .handled h := by
    cases hcase : log[i] with
    | handled h' =>
      rw [hcase] at hof
      rw [Option.some.inj hof]
    | opened | established =>
      rw [hcase] at hof
      exact nomatch hof
  rw [← hentry, List.getElem_cons_drop, List.take_append_drop]

theorem log_split_two {log : List Entry} {i j : Nat} {first second : Handled} (hij : i < j)
    (hi : handledAt log i = some first) (hj : handledAt log j = some second) :
    log = (log.take j).take i ++ .handled first :: (log.take j).drop (i + 1) ++
      .handled second :: log.drop (j + 1) := by
  have hfirst : handledAt (log.take j) i = some first := by
    rw [handledAt, List.getElem?_take_of_lt hij]
    exact hi
  rw [← log_split hfirst]
  exact log_split hj

/-! ## A small server -/

namespace Sample

def config : Config := ⟨16, 64, 1, fromSecs 3600⟩

def peer : SocketAddr := ⟨.v4 #v[192, 0, 2, 7], 5684, 0, 0⟩

def cert : ClientCertInfo := ⟨"CN=device", [0x07], [0x30, 0x00]⟩

def clockAt (t : Int) : Clock := ⟨t, t, t, t, t, le_rfl, le_rfl, le_rfl, le_rfl⟩

def answering (t : Int) (body : List UInt8) : Env :=
  ⟨clockAt t, fun _ => .ok (.ok ⟨body, 281⟩), .ok ()⟩

def arrival (env : Env) (data : List UInt8) : Input :=
  .datagram ⟨peer, env.clock.reap, .ok env.clock.reap,
    ⟨.done, some (.ok cert.derBytes), fun _ => some (cert.subjectDn, cert.serial), [.data data]⟩,
    .ok (), fun _ => env⟩

def post (messageId : UInt8) (options payload : List UInt8) : List UInt8 :=
  [0x41, 0x02, 0x00, messageId, 0xAA, 0xB3, 0x73, 0x65, 0x6E] ++ options ++ 0xFF :: payload

def block1 (value : UInt8) : List UInt8 := [0xD1, 0x03, value]

def get (messageId token : UInt8) (options : List UInt8) : List UInt8 :=
  [0x41, 0x01, 0x00, messageId, token, 0xB4, 0x63, 0x72, 0x74, 0x73] ++ options

def block2 (value : UInt8) : List UInt8 := [0xC1, value]

end Sample

end Server

end Kipuka.Coap
