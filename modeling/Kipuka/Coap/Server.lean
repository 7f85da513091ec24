/-
  The EST-coaps server (`CoapDtlsServer` in `crates/kipuka-coap/src/server.rs`): its tables and
  `process_datagram`, which handles one decrypted CoAP message.
-/
import Kipuka.Coap.Dtls
import Kipuka.Coap.Route
import Kipuka.Generic.Runtime

namespace Kipuka.Coap

open Generic

/-! ## Configuration -/

structure Config where
  blockSize : UInt16
  maxPayload : Nat
  maxSessions : Nat
  sessionTimeout : Nat

def saturatingMul (a b : Nat) : Nat := min (a * b) (2 ^ 64 - 1)

namespace Config

def blockSzx (cfg : Config) : UInt8 := (szxFromBlockSize cfg.blockSize.toNat).getD defaultSzx

def maxBlockAssemblers (cfg : Config) : Nat := saturatingMul cfg.maxSessions 2

def maxExchanges (cfg : Config) : Nat := saturatingMul cfg.maxBlockAssemblers 16

def blockTtl : Nat := fromSecs 60

def exchangeLifetime : Nat := fromSecs 247

end Config

/-! ## Tables -/

structure TransferKey where
  peer : SocketAddr
  token : List UInt8
  path : String
  code : UInt8
  deriving DecidableEq, Repr

def transferKey (peer : SocketAddr) (m : CoapMessage) : TransferKey where
  peer := peer
  token := m.token
  path := m.uriPath
  code := m.code.toByte

/-- What a reply carries: 2.31 Continue, block 0 of a response body, a later block of one, or
    anything else. -/
inductive Content where
  | plain
  | proceed
  | firstBlock (key : TransferKey) (body : List UInt8)
  | nextBlock (key : TransferKey) (body : List UInt8) (num : UInt32)
  deriving DecidableEq, Repr

structure Reply where
  content : Content
  bytes : List UInt8
  deriving DecidableEq, Repr

structure Exchange where
  request : List UInt8
  response : Option Reply
  time : Int
  deriving DecidableEq, Repr

structure CachedResponse where
  disasm : BlockDisassembler
  contentFormat : UInt16
  code : CoapCode
  time : Int
  deriving DecidableEq, Repr

/-- The tables of `CoapDtlsServer`. `opened` counts the connections made so far and numbers them. -/
structure Server where
  connections : Table SocketAddr DtlsConnection
  opened : Nat
  blockAssemblers : Table TransferKey (BlockAssembler × Int)
  responseCache : Table TransferKey CachedResponse
  exchanges : Table (SocketAddr × UInt16) Exchange

def Server.bind : Server where
  connections := ∅
  opened := 0
  blockAssemblers := ∅
  responseCache := ∅
  exchanges := ∅

/-! ## Surroundings -/

structure HandlerCall where
  operation : EstOperation
  label : Option String
  payload : List UInt8
  contentFormat : Option UInt16
  clientCert : Option ClientCertInfo
  deriving DecidableEq, Repr

structure EstResponse where
  payload : List UInt8
  contentFormat : UInt16
  deriving DecidableEq, Repr

/-- The readings of the clock while one message is handled: when stale entries are reaped, when
    exchanges are pruned, when the exchange is recorded, when a transfer is touched and when a
    response is cached. -/
structure Clock where
  reap : Int
  prune : Int
  accept : Int
  touch : Int
  store : Int
  reap_le_prune : reap ≤ prune
  prune_le_accept : prune ≤ accept
  accept_le_touch : accept ≤ touch
  touch_le_store : touch ≤ store

structure Env where
  clock : Clock
  /-- The handler; the outer error is that of the task it runs in. -/
  handle : HandlerCall → Except String (Except CoapError EstResponse)
  /-- Encrypting the response and sending the packets. -/
  transmit : Except CoapError Unit

inductive Event where
  /-- A new exchange is recorded. -/
  | accepted
  | called (call : HandlerCall)
  /-- A response is made; `sent` tells whether it went out. -/
  | replied (reply : Reply) (sent : Bool)
  /-- The stored response is sent again. -/
  | replayed (reply : Reply) (sent : Bool)
  deriving DecidableEq, Repr

structure Step where
  server : Server
  events : List Event
  result : Outcome CoapError Unit

def Step.after (event : Event) (step : Step) : Step := { step with events := event :: step.events }

namespace Server

/-! ## Sending -/

def sendEncoded (s : Server) (env : Env) (peer : SocketAddr) : Except CoapError Unit :=
  match s.connections.lookup peer with
  | none => .error (.unauthorized "DTLS session required")
  | some conn =>
    if conn.handshakeComplete then env.transmit
    else .error (.unauthorized "DTLS handshake incomplete")

def storeResponse (s : Server) (peer : SocketAddr) (messageId : UInt16) (reply : Reply) : Server :=
  match s.exchanges.lookup (peer, messageId) with
  | some ex =>
    { s with exchanges :=
        s.exchanges.insert (peer, messageId) { ex with response := some reply } }
  | none => s

def sendResponse (s : Server) (env : Env) (peer : SocketAddr) (content : Content)
    (message : CoapMessage) : Step :=
  let reply : Reply := ⟨content, message.encode⟩
  let s := s.storeResponse peer message.messageId reply
  let result := s.sendEncoded env peer
  ⟨s, [.replied reply result.isOk], .ofExcept result⟩

def acknowledge (message : CoapMessage) (code : CoapCode) (options : List CoapOption)
    (payload : List UInt8) : CoapMessage where
  version := coapVersion
  msgType := .acknowledgement
  code := code
  messageId := message.messageId
  token := message.token
  options := options
  payload := payload

def errorCode : CoapError → CoapCode
  | .invalidMessage _ => .badRequest
  | .resourceNotFound _ => .notFound
  | .unsupportedMethod _ => .methodNotAllowed
  | .unsupportedContentFormat _ => .unsupportedContentFormat
  | .unauthorized _ => .unauthorized
  | .forbidden _ => .forbidden
  | .payloadTooLarge _ _ => ⟨4, 13⟩
  | _ => .internalServerError

def buildErrorResponse (message : CoapMessage) (error : CoapError) : CoapMessage :=
  acknowledge message (errorCode error) [] (asBytes error.toText)

def sendError (s : Server) (env : Env) (peer : SocketAddr) (message : CoapMessage)
    (error : CoapError) : Step :=
  s.sendResponse env peer .plain (buildErrorResponse message error)

def blockOptions (contentFormat : UInt16) (block : BlockOption) (disasm : BlockDisassembler) :
    List CoapOption :=
  [.fromUint optionContentFormat contentFormat.toUInt32, .fromUint optionBlock2 block.encode,
    .fromUint optionSize2 disasm.payload.length.toUInt32]

/-! ## Reaping and duplicates -/

def reapStaleEntries (s : Server) (now : Int) : Server :=
  let deadline := now - Config.blockTtl
  { s with
    blockAssemblers := s.blockAssemblers.retain fun _ e => decide (e.2 > deadline)
    responseCache := s.responseCache.retain fun _ e => decide (e.time > deadline) }

def pruneExchanges (s : Server) (now : Int) : Server :=
  { s with exchanges := s.exchanges.retain fun _ ex =>
      decide (durationSince now ex.time < Config.exchangeLifetime) }

def recordExchange (s : Server) (peer : SocketAddr) (messageId : UInt16) (request : List UInt8)
    (now : Int) : Server :=
  { s with exchanges := s.exchanges.insert (peer, messageId) ⟨request, none, now⟩ }

inductive Dedup where
  /-- The message id is taken by other bytes. -/
  | reused
  | duplicate (response : Option Reply)
  | full
  | fresh

section Process

variable (cfg : Config)

def deduplicate (s : Server) (peer : SocketAddr) (messageId : UInt16) (data : List UInt8) : Dedup :=
  match s.exchanges.lookup (peer, messageId) with
  | some ex => if ex.request ≠ data then .reused else .duplicate ex.response
  | none => if s.exchanges.size ≥ cfg.maxExchanges then .full else .fresh

/-! ## Later blocks of a response -/

/-- A request for block `num` of a cached response. Each access refreshes the entry; the last block
    and a block out of range remove it. -/
def continueResponse (s : Server) (env : Env) (peer : SocketAddr) (message : CoapMessage)
    (num : UInt32) : Step :=
  let key := transferKey peer message
  let unknown : CoapError := .invalidMessage "unknown Block2 exchange"
  match s.responseCache.lookup key with
  | none => s.sendError env peer message unknown
  | some cached =>
    match cached.disasm.getBlock num with
    | none =>
      { s with responseCache := s.responseCache.erase key }.sendError env peer message unknown
    | some (data, block) =>
      let cache :=
        if block.more then s.responseCache.insert key { cached with time := env.clock.touch }
        else s.responseCache.erase key
      { s with responseCache := cache }.sendResponse env peer
        (.nextBlock key cached.disasm.payload num)
        (acknowledge message cached.code
          (blockOptions cached.contentFormat block cached.disasm) data)

/-! ## Blocks of a request -/

inductive Assembly where
  | rejected (s : Server) (e : CoapError)
  | pending (s : Server)
  | complete (s : Server) (payload : List UInt8)

/-- The block is fed to the assembler of its transfer, which is made if there is none. -/
def feedBlock (s : Server) (env : Env) (key : TransferKey) (a : BlockAssembler)
    (block : BlockOption) (data : List UInt8) : Assembly :=
  match a.processBlock block data with
  | (.error e, a') =>
    .rejected { s with blockAssemblers := s.blockAssemblers.insert key (a', env.clock.touch) } e
  | (.ok false, a') =>
    .pending { s with blockAssemblers := s.blockAssemblers.insert key (a', env.clock.touch) }
  | (.ok true, a') =>
    let s := { s with blockAssemblers := s.blockAssemblers.erase key }
    match a'.intoPayload with
    | .ok payload => .complete s payload
    | .error e => .rejected s e

/-- Block-wise assembly; a message without Block1 is complete by itself. -/
def assemble (s : Server) (env : Env) (peer : SocketAddr) (message : CoapMessage) : Assembly :=
  match message.block1 with
  | none => .complete s message.payload
  | some block =>
    let key := transferKey peer message
    match s.blockAssemblers.lookup key with
    | some (a, _) => s.feedBlock env key a block message.payload
    | none =>
      if s.blockAssemblers.size ≥ cfg.maxBlockAssemblers then
        .rejected s (.internal "too many concurrent block transfers")
      else s.feedBlock env key (.new cfg.maxPayload) block message.payload

/-! ## The handler and its response -/

def responseCode : EstOperation → CoapCode
  | .simpleEnroll | .simpleReenroll | .serverKeygen => .created
  | .caCerts | .csrAttrs => .content

def cacheResponse (s : Server) (key : TransferKey) (cached : CachedResponse) : Server :=
  if s.responseCache.size < cfg.maxBlockAssemblers then
    { s with responseCache := s.responseCache.insert key cached }
  else s

/-- A response of more than one block: block 0 is sent, then the response is cached. -/
def sendFirstBlock (s : Server) (env : Env) (peer : SocketAddr) (request : CoapEstRequest)
    (response : EstResponse) : Step :=
  let disasm := BlockDisassembler.new response.payload cfg.blockSzx
  let key := transferKey peer request.message
  let code := responseCode request.operation
  let cached : CachedResponse := ⟨disasm, response.contentFormat, code, env.clock.store⟩
  match disasm.getBlock 0 with
  | none => ⟨s.cacheResponse cfg key cached, [], .ok ()⟩
  | some (data, block) =>
    let step := s.sendResponse env peer (.firstBlock key response.payload)
      (acknowledge request.message code (blockOptions response.contentFormat block disasm) data)
    match step.result with
    | .ok () => { step with server := step.server.cacheResponse cfg key cached }
    | _ => step

def respond (s : Server) (env : Env) (peer : SocketAddr) (request : CoapEstRequest)
    (response : EstResponse) : Step :=
  if response.payload.length > cfg.maxPayload then
    ⟨s, [], .err (.payloadTooLarge response.payload.length cfg.maxPayload)⟩
  else if response.payload.length > blockSizeFromSzx cfg.blockSzx then
    s.sendFirstBlock cfg env peer request response
  else
    s.sendResponse env peer .plain
      (acknowledge request.message (responseCode request.operation)
        [.fromUint optionContentFormat response.contentFormat.toUInt32] response.payload)

def handlerCall (s : Server) (peer : SocketAddr) (request : CoapEstRequest) (payload : List UInt8) :
    HandlerCall where
  operation := request.operation
  label := request.label
  payload := payload
  contentFormat := request.message.contentFormat
  clientCert := (s.connections.lookup peer).bind DtlsConnection.clientCert

def dispatch (s : Server) (env : Env) (peer : SocketAddr) (request : CoapEstRequest)
    (payload : List UInt8) : Step :=
  if payload.length > cfg.maxPayload then
    s.sendError env peer request.message (.payloadTooLarge payload.length cfg.maxPayload)
  else
    let call := s.handlerCall peer request payload
    .after (.called call)
      (match env.handle call with
      | .error e => ⟨s, [], .err (.internal e)⟩
      | .ok (.error e) => s.sendError env peer request.message e
      | .ok (.ok response) => s.respond cfg env peer request response)

/-! ## process_datagram -/

def serveOperation (s : Server) (env : Env) (peer : SocketAddr) (message : CoapMessage) : Step :=
  match routeMessage message with
  | .error e => s.sendError env peer message e
  | .ok request =>
    match s.assemble cfg env peer request.message with
    | .rejected s e => ⟨s, [], .err e⟩
    | .pending s =>
      -- 2.31 Continue
      s.sendResponse env peer .proceed (acknowledge message ⟨2, 31⟩
        ((message.block1.map fun block => .fromUint optionBlock1 block.encode).toList) [])
    | .complete s payload => s.dispatch cfg env peer request payload

def serve (s : Server) (env : Env) (peer : SocketAddr) (message : CoapMessage) : Step :=
  if message.code.isRequest then
    match message.block2 with
    | none => s.serveOperation cfg env peer message
    | some block2 =>
      if block2.num > 0 then s.continueResponse env peer message block2.num
      else s.serveOperation cfg env peer message
  else ⟨s, [], .ok ()⟩

def exchange (s : Server) (env : Env) (peer : SocketAddr) (message : CoapMessage)
    (data : List UInt8) : Step :=
  let s := s.pruneExchanges env.clock.prune
  match s.deduplicate cfg peer message.messageId data with
  | .reused => ⟨s, [], .err (.invalidMessage "message ID reused during exchange lifetime")⟩
  | .duplicate none => ⟨s, [], .ok ()⟩
  | .duplicate (some reply) =>
    let result := s.sendEncoded env peer
    ⟨s, [.replayed reply result.isOk], .ofExcept result⟩
  | .full => ⟨s, [], .err (.internal "exchange capacity exhausted")⟩
  | .fresh =>
    .after .accepted
      ((s.recordExchange peer message.messageId data env.clock.accept).serve cfg env peer message)

def processDatagram (s : Server) (env : Env) (data : List UInt8) (peer : SocketAddr) : Step :=
  let s := s.reapStaleEntries env.clock.reap
  match CoapMessage.parse data with
  | .err e => ⟨s, [], .err e⟩
  | .panic => ⟨s, [], .panic⟩
  | .ok message =>
    if message.msgType ≠ .confirmable ∧ message.msgType ≠ .nonConfirmable then ⟨s, [], .ok ()⟩
    else if message.payload.length > cfg.maxPayload then
      s.sendError env peer message (.payloadTooLarge message.payload.length cfg.maxPayload)
    else s.exchange cfg env peer message data

end Process

end Server

end Kipuka.Coap
