/-
  Enrollment through a pool of CAs (`src/ca/pool.rs`): `route_enrollment` selects a CA, sends it the
  request, and goes on with another selection if that fails, up to `max_retries` times.
-/
import Kipuka.Generic.Strand
import Kipuka.Ha.Select
import Mathlib.Data.List.DropRight

namespace Kipuka.Ca

open Generic
open Ha (CaId CaConnection CaPool CaStatus Statuses nextTicket)

/-! ## Sending a request -/

inductive CaBackendError where
  | noHealthyBackend
  | timeout (caId : String) (elapsedMs : Nat)
  | retriesExhausted (attempts : Nat)
  | backendError (caId message : String)
  deriving DecidableEq, Repr

/-- What becomes of a POST: the timeout runs out, the request fails, or a response arrives with its
    status as a number and as a text, and with a body that can be read as text or as bytes. -/
inductive Sent where
  | timedOut
  | failed (error : String)
  | response (status : Nat) (statusText : String) (text : Except String String)
      (bytes : Except String (List UInt8))

structure Base64 where
  encode : List UInt8 → String
  decode : List UInt8 → Except String (List UInt8)

structure CaBackendPoolConfig where
  requestTimeout : Nat
  maxRetries : Nat

def enrollUrl (endpoint : String) : String :=
  String.ofList (endpoint.toList.rdropWhile fun c => c = '/') ++ "/.well-known/est/simpleenroll"

def sendResult (B : Base64) (cfg : CaBackendPoolConfig) (ca : CaConnection) :
    Sent → Except CaBackendError (List UInt8)
  | .timedOut => .error (.timeout ca.id (cfg.requestTimeout / 1000000))
  | .failed e =>
    let url := enrollUrl ca.endpoint
    .error (.backendError ca.id s!"HTTP request to {url} failed: {e}")
  | .response status statusText text bytes =>
    if ¬ (200 ≤ status ∧ status < 300) then
      let url := enrollUrl ca.endpoint
      let body := text.toOption.getD ""
      .error (.backendError ca.id s!"EST enrollment failed: HTTP {statusText} from {url}: {body}")
    else
      match bytes with
      | .error e => .error (.backendError ca.id s!"failed to read EST response body: {e}")
      | .ok body =>
        (B.decode body).mapError fun e =>
          .backendError ca.id s!"failed to decode base64 PKCS#7 response: {e}"

/-! ## Routing -/

inductive Op where
  | select
  | now
  | post (url body : String)
  | recordSuccess (id : CaId) (latency : Nat)
  | recordFailure (id : CaId)

abbrev Reply : Op → Type
  | .select => Option CaConnection
  | .now => Int
  | .post .. => Sent
  | .recordSuccess .. => Unit
  | .recordFailure .. => Unit

abbrev ask (o : Op) : Prog Op Reply (Reply o) := Prog.op o

def attempts (B : Base64) (cfg : CaBackendPoolConfig) (csrDer : List UInt8) :
    (left : Nat) → (lastError : Option CaBackendError) →
      Prog Op Reply (Except CaBackendError (List UInt8))
  | 0, lastError => pure (.error (lastError.getD (.retriesExhausted (cfg.maxRetries + 1))))
  | left + 1, _ => do
    match ← ask .select with
    | none => pure (.error .noHealthyBackend)
    | some ca => do
      let start ← ask .now
      let sent ← ask (.post (enrollUrl ca.endpoint) (B.encode csrDer))
      let stop ← ask .now
      match sendResult B cfg ca sent with
      | .ok certDer => do
        let _ ← ask (.recordSuccess ca.id (durationSince stop start))
        pure (.ok certDer)
      | .error e => do
        let _ ← ask (.recordFailure ca.id)
        attempts B cfg csrDer left (some e)

def routeEnrollment (B : Base64) (cfg : CaBackendPoolConfig) (csrDer : List UInt8) :
    Prog Op Reply (Except CaBackendError (List UInt8)) :=
  attempts B cfg csrDer (cfg.maxRetries + 1) none

structure PoolState where
  clock : Int
  statuses : Statuses
  counter : Nat

structure PoolEnv where
  elapsed : Nat
  sent : Sent

def PoolState.update (s : PoolState) (id : CaId) (f : CaStatus → CaStatus) : PoolState :=
  match s.statuses.lookup id with
  | none => s
  | some status => { s with statuses := s.statuses.insert id (f status) }

def perform (pool : CaPool) (e : PoolEnv) (s : PoolState) : (op : Op) → Reply op × PoolState
  | .select =>
    let choice := pool.selectAllowed s.statuses s.counter (pool.connections.map CaConnection.id)
    (choice.1, { s with counter := choice.2 })
  | .now => (s.clock, s)
  | .post .. => (e.sent, s)
  | .recordSuccess id latency => ((), s.update id fun st => st.recordSuccess latency s.clock)
  | .recordFailure id => ((), s.update id fun st => st.recordFailure pool.failureThreshold s.clock)

def exec (pool : CaPool) (e : PoolEnv) (op : Op) (s : PoolState) : Option (Reply op × PoolState) :=
  some (perform pool e { s with clock := s.clock + e.elapsed } op)

theorem attempts_succ (B : Base64) (cfg : CaBackendPoolConfig) (csrDer : List UInt8) (left : Nat)
    (lastError : Option CaBackendError) :
    attempts B cfg csrDer (left + 1) lastError = .call .select fun pick =>
      match pick with
      | none => .ret (.error .noHealthyBackend)
      | some ca => .call .now fun start =>
        .call (.post (enrollUrl ca.endpoint) (B.encode csrDer)) fun sent => .call .now fun stop =>
          match sendResult B cfg ca sent with
          | .ok certDer => .call (.recordSuccess ca.id (durationSince stop start)) fun _ =>
            .ret (.ok certDer)
          | .error e => .call (.recordFailure ca.id) fun _ => attempts B cfg csrDer left (some e) := by
  refine congrArg (Prog.call Op.select) (funext fun pick => ?_)
  cases pick with
  | none => rfl
  | some ca =>
    refine congrArg (Prog.call Op.now) (funext fun start => ?_)
    refine congrArg (Prog.call _) (funext fun sent => congrArg (Prog.call _) (funext fun stop => ?_))
    cases sendResult B cfg ca sent <;> rfl

/-! ## Retries -/

def available (statuses : Statuses) (id : CaId) : Bool :=
  (statuses.lookup id).any fun status => status.health.isAvailable

/-- No step of the call selects a CA that failed in this call while another one is available and
    has not been tried in it. `tried` and `failed` are the CAs up to here. -/
def triesOthersFirst (pool : CaPool) : (tried failed : List CaId) →
    List (Moment Op Reply PoolState) → Bool
  | _, _, [] => true
  | tried, failed, ⟨before, ⟨.select, some ca⟩, _⟩ :: rest =>
    (!failed.contains ca.id || pool.connections.all fun c =>
      !available before.statuses c.id || tried.contains c.id) &&
      triesOthersFirst pool (ca.id :: tried) failed rest
  | tried, failed, ⟨_, ⟨.recordFailure id, _⟩, _⟩ :: rest =>
    triesOthersFirst pool tried (id :: failed) rest
  | tried, failed, _ :: rest => triesOthersFirst pool tried failed rest

/-- The CA is not available, or its next failure opens its circuit breaker. -/
def failureOpens (threshold : Nat) (statuses : Statuses) (id : CaId) : Bool :=
  (statuses.lookup id).all fun status =>
    !status.health.isAvailable || decide (threshold ≤ status.failuresAfter)

/-- What the others do meanwhile, if they do anything, makes no CA available and leaves those to
    which one failure may happen as they are. -/
structure Calm (threshold : Nat) (R : PoolState → PoolState → Prop) : Prop where
  refl : ∀ s, R s s
  unavailable : ∀ s s', R s s' → ∀ id, available s.statuses id = false →
    available s'.statuses id = false
  opens : ∀ s s', R s s' → ∀ id, failureOpens threshold s.statuses id = true →
    failureOpens threshold s'.statuses id = true

/-- The same CAs with the same failure threshold. Strategy, priorities and weights may differ. -/
def SameCas (pool pool' : CaPool) : Prop :=
  pool'.connections.map CaConnection.id = pool.connections.map CaConnection.id ∧
    pool'.failureThreshold = pool.failureThreshold

/-- No retry is made, or at most one CA is available, or every failure opens a breaker. -/
def NoRepeats (pool : CaPool) (cfg : CaBackendPoolConfig) (statuses : Statuses) : Prop :=
  cfg.maxRetries = 0 ∨
    (∀ id ∈ pool.connections.map CaConnection.id, ∀ id' ∈ pool.connections.map CaConnection.id,
      available statuses id = true → available statuses id' = true → id = id') ∨
    ∀ id ∈ pool.connections.map CaConnection.id,
      failureOpens pool.failureThreshold statuses id = true

variable {pool : CaPool} {s s' : PoolState} {e : PoolEnv}

theorem select_available {ca : CaConnection} (h : exec pool e .select s = some (some ca, s')) :
    ca ∈ pool.connections ∧ available s.statuses ca.id = true := by
  have hpick : (pool.selectAllowed s.statuses s.counter
      (pool.connections.map CaConnection.id)).1 = some ca :=
    congrArg Prod.fst (Option.some.inj h)
  rw [Ha.selectAllowed_eq_from] at hpick
  obtain ⟨status, hmem⟩ := Ha.select_mem hpick
  obtain ⟨hca, -, status', hlookup, havailable⟩ := Ha.mem_candidatesAmong.mp ⟨status, hmem⟩
  rw [available, hlookup, Option.any_some]
  exact ⟨hca, havailable⟩

theorem statuses_of_exec {op : Op} {r : Reply op} (h : exec pool e op s = some (r, s'))
    (hop : op = .select ∨ op = .now ∨ ∃ url body, op = .post url body) :
    s'.statuses = s.statuses := by
  obtain rfl : (perform pool e { s with clock := s.clock + e.elapsed } op).2 = s' :=
    congrArg Prod.snd (Option.some.inj h)
  rcases hop with rfl | rfl | ⟨url, body, rfl⟩ <;> rfl

theorem lookup_update (s : PoolState) (id id' : CaId) (f : CaStatus → CaStatus) :
    (s.update id f).statuses.lookup id' =
      if id' = id then (s.statuses.lookup id).map f else s.statuses.lookup id' := by
  unfold PoolState.update
  cases hlookup : s.statuses.lookup id with
  | none =>
    dsimp only
    split
    · next heq => rw [heq, hlookup, Option.map_none]
    · rfl
  | some st => exact AList.lookup_insert_eq ..

theorem lookup_recordFailure {id : CaId} {r : Unit}
    (h : exec pool e (.recordFailure id) s = some (r, s')) (id' : CaId) :
    s'.statuses.lookup id' = if id' = id then (s.statuses.lookup id).map fun st =>
        st.recordFailure pool.failureThreshold (s.clock + e.elapsed)
      else s.statuses.lookup id' := by
  have hs' : s' = ({ s with clock := s.clock + e.elapsed } : PoolState).update id fun st =>
      st.recordFailure pool.failureThreshold (s.clock + e.elapsed) :=
    (congrArg Prod.snd (Option.some.inj h)).symm
  rw [hs', lookup_update]

theorem unavailable_recordFailure {id : CaId} {r : Unit}
    (h : exec pool e (.recordFailure id) s = some (r, s')) (id' : CaId)
    (hid' : available s.statuses id' = false) : available s'.statuses id' = false := by
  unfold available at hid' ⊢
  rw [lookup_recordFailure h]
  split
  · next heq =>
    subst heq
    cases hlookup : s.statuses.lookup id' with
    | none => rfl
    | some st =>
      rw [hlookup, Option.any_some] at hid'
      rw [Option.map_some, Option.any_some, Ha.CaStatus.recordFailure_health]
      split
      · rfl
      · split
        · next hhealthy =>
          rw [hhealthy] at hid'
          cases hid'
        · exact hid'
  · exact hid'

theorem recordFailure_opens {id : CaId} {r : Unit}
    (h : exec pool e (.recordFailure id) s = some (r, s'))
    (hopens : failureOpens pool.failureThreshold s.statuses id = true) :
    available s'.statuses id = false := by
  rw [available, lookup_recordFailure h, if_pos rfl]
  cases hlookup : s.statuses.lookup id with
  | none => rfl
  | some st =>
    rw [failureOpens, hlookup, Option.all_some, Bool.or_eq_true, Bool.not_eq_true',
      decide_eq_true_iff] at hopens
    rcases hopens with hdown | hreached
    · have hstill := unavailable_recordFailure h id (by rw [available, hlookup]; exact hdown)
      rw [available, lookup_recordFailure h, if_pos rfl, hlookup] at hstill
      exact hstill
    · rw [Option.map_some, Option.any_some, Ha.CaStatus.recordFailure_health, if_pos hreached]
      rfl

theorem failureOpens_of_unavailable {threshold : Nat} {statuses : Statuses} {id : CaId}
    (h : available statuses id = false) : failureOpens threshold statuses id = true := by
  unfold available at h
  unfold failureOpens
  cases hlookup : statuses.lookup id with
  | none => rfl
  | some st =>
    rw [hlookup, Option.any_some] at h
    rw [Option.all_some, h]
    rfl

section Calls

variable {B : Base64} {cfg : CaBackendPoolConfig} {csrDer : List UInt8}
  {R : PoolState → PoolState → Prop}

/-- What has to hold before each attempt, of the attempts left, the CAs tried and failed, and the
    statuses, for the call to try others first. -/
structure Orderly (pool : CaPool) (R : PoolState → PoolState → Prop)
    (I : Nat → List CaId → List CaId → Statuses → Prop) : Prop where
  quiet : ∀ left tried failed s s', R s s' → I left tried failed s.statuses →
    I left tried failed s'.statuses
  selected : ∀ left tried failed statuses, I (left + 1) tried failed statuses →
    ∀ c ∈ pool.connections, available statuses c.id = true → c.id ∈ failed →
      ∀ d ∈ pool.connections, available statuses d.id = true → d.id ∈ tried
  failed : ∀ left tried failed e s s' r, ∀ c ∈ pool.connections,
    I (left + 1) tried failed s.statuses → exec pool e (.recordFailure c.id) s = some (r, s') →
      I left (c.id :: tried) (c.id :: failed) s'.statuses

theorem Orderly.attempts {I : Nat → List CaId → List CaId → Statuses → Prop}
    (hI : Orderly pool R I) {left : Nat} {lastError : Option CaBackendError} {s t : PoolState}
    {trace : List (Moment Op Reply PoolState)} {q : Prog Op Reply (Except CaBackendError (List UInt8))}
    (h : Strand (exec pool) R (attempts B cfg csrDer left lastError) s trace q t)
    {tried failed : List CaId} (hs : I left tried failed s.statuses) :
    triesOthersFirst pool tried failed trace = true := by
  induction left generalizing s lastError tried failed trace with
  | zero =>
    obtain rfl : trace = [] := Strand.of_ret h
    rfl
  | succ left ih =>
    rw [attempts_succ] at h
    rcases h.of_call with rfl | ⟨e₁, s₁, pick, s₁', trace₁, hR₁, he₁, rfl, h₁⟩
    · rfl
    cases pick with
    | none =>
      obtain rfl : trace₁ = [] := Strand.of_ret h₁
      rfl
    | some ca =>
      obtain ⟨hca, havailable⟩ := select_available he₁
      have hs₁ := hI.quiet _ _ _ _ _ hR₁ hs
      have hothers : (!failed.contains ca.id || pool.connections.all fun c =>
          !available s₁.statuses c.id || tried.contains c.id) = true := by
        rw [Bool.or_eq_true, Bool.not_eq_true', List.contains_eq_mem, decide_eq_false_iff_not,
          List.all_eq_true, or_iff_not_imp_left, not_not]
        intro hfailed d hd
        rw [Bool.or_eq_true, Bool.not_eq_true', List.contains_eq_mem, decide_eq_true_iff]
        refine (Bool.eq_false_or_eq_true _).symm.imp_right fun hd' => ?_
        exact hI.selected _ _ _ _ hs₁ ca hca havailable hfailed d hd hd'
      simp only [triesOthersFirst, hothers, Bool.true_and]
      rw [← statuses_of_exec he₁ (.inl rfl)] at hs₁
      rcases h₁.of_call with rfl | ⟨e₂, s₂, start, s₂', trace₂, hR₂, he₂, rfl, h₂⟩
      · rfl
      rcases h₂.of_call with rfl | ⟨e₃, s₃, sent, s₃', trace₃, hR₃, he₃, rfl, h₃⟩
      · rfl
      rcases h₃.of_call with rfl | ⟨e₄, s₄, stop, s₄', trace₄, hR₄, he₄, rfl, h₄⟩
      · rfl
      have hs₂ := hI.quiet _ _ _ _ _ hR₂ hs₁
      rw [← statuses_of_exec he₂ (.inr (.inl rfl))] at hs₂
      have hs₃ := hI.quiet _ _ _ _ _ hR₃ hs₂
      rw [← statuses_of_exec he₃ (.inr (.inr ⟨_, _, rfl⟩))] at hs₃
      have hs₄ := hI.quiet _ _ _ _ _ hR₄ hs₃
      rw [← statuses_of_exec he₄ (.inr (.inl rfl))] at hs₄
      cases hsend : sendResult B cfg ca sent with
      | ok certDer =>
        rw [hsend] at h₄
        rcases h₄.of_call with rfl | ⟨e₅, s₅, r, s₅', trace₅, hR₅, he₅, rfl, h₅⟩
        · rfl
        obtain rfl : trace₅ = [] := Strand.of_ret h₅
        rfl
      | error error =>
        rw [hsend] at h₄
        rcases h₄.of_call with rfl | ⟨e₅, s₅, r, s₅', trace₅, hR₅, he₅, rfl, h₅⟩
        · rfl
        exact ih h₅ (hI.failed _ _ _ _ _ _ _ ca hca (hI.quiet _ _ _ _ _ hR₅ hs₄) he₅)

/-! ## When no CA is tried twice -/

theorem orderly_once (pool : CaPool) (R : PoolState → PoolState → Prop) :
    Orderly pool R fun left _ failed _ => left + failed.length ≤ 1 where
  quiet := fun _ _ _ _ _ _ h => h
  selected := by
    intro left tried failed statuses h c _ _ hfailed
    have hpos := List.length_pos_of_mem hfailed
    omega
  failed := by
    intro left tried failed e s s' r c _ h _
    simp only [List.length_cons]
    omega

theorem available_of_later {statuses statuses' : Statuses}
    (hkeeps : ∀ id, available statuses id = false → available statuses' id = false) {id : CaId}
    (h : available statuses' id = true) : available statuses id = true := by
  cases hid : available statuses id with
  | false => exact absurd h (by rw [hkeeps id hid]; exact Bool.false_ne_true)
  | true => rfl

theorem orderly_alone (hR : Calm pool.failureThreshold R) :
    Orderly pool R fun _ tried failed statuses => (∀ id ∈ failed, id ∈ tried) ∧
      ∀ id ∈ pool.connections.map CaConnection.id, ∀ id' ∈ pool.connections.map CaConnection.id,
        available statuses id = true → available statuses id' = true → id = id' where
  quiet := by
    intro left tried failed s s' hRs h
    refine ⟨h.1, fun c hc d hd hc' hd' => ?_⟩
    have hkeeps := hR.unavailable s s' hRs
    exact h.2 c hc d hd (available_of_later hkeeps hc') (available_of_later hkeeps hd')
  selected := by
    intro left tried failed statuses h c hc hc' hfailed d hd hd'
    rw [h.2 d.id (List.mem_map_of_mem hd) c.id (List.mem_map_of_mem hc) hd' hc']
    exact h.1 _ hfailed
  failed := by
    intro left tried failed e s s' r ca _ h he
    have hkeeps := unavailable_recordFailure he
    refine ⟨fun id hid => ?_, fun c hc d hd hc' hd' => ?_⟩
    · rcases List.mem_cons.mp hid with rfl | hid
      · exact List.mem_cons_self
      · exact List.mem_cons_of_mem _ (h.1 id hid)
    · exact h.2 c hc d hd (available_of_later hkeeps hc') (available_of_later hkeeps hd')

theorem orderly_opening (hR : Calm pool.failureThreshold R) :
    Orderly pool R fun _ _ failed statuses => (∀ id ∈ failed, available statuses id = false) ∧
      ∀ id ∈ pool.connections.map CaConnection.id,
        failureOpens pool.failureThreshold statuses id = true where
  quiet := by
    intro left tried failed s s' hRs h
    exact ⟨fun id hid => hR.unavailable s s' hRs id (h.1 id hid),
      fun id hid => hR.opens s s' hRs id (h.2 id hid)⟩
  selected := by
    intro left tried failed statuses h c hc hc' hfailed
    rw [h.1 _ hfailed] at hc'
    cases hc'
  failed := by
    intro left tried failed e s s' r ca hca h he
    have hdown := recordFailure_opens he (h.2 ca.id (List.mem_map_of_mem hca))
    refine ⟨List.forall_mem_cons.mpr ⟨hdown, fun id hid => ?_⟩, fun id hid => ?_⟩
    · exact unavailable_recordFailure he id (h.1 id hid)
    · by_cases heq : id = ca.id
      · rw [heq]
        exact failureOpens_of_unavailable hdown
      · have hopens := h.2 id hid
        unfold failureOpens at hopens ⊢
        rw [lookup_recordFailure he, if_neg heq]
        exact hopens

theorem NoRepeats.tries (hR : Calm pool.failureThreshold R) (h : NoRepeats pool cfg s.statuses)
    {t : PoolState} {trace : List (Moment Op Reply PoolState)}
    {q : Prog Op Reply (Except CaBackendError (List UInt8))}
    (hstrand : Strand (exec pool) R (routeEnrollment B cfg csrDer) s trace q t) :
    triesOthersFirst pool [] [] trace = true := by
  obtain hretries | halone | hopens := h
  · refine (orderly_once pool R).attempts hstrand ?_
    simp [hretries]
  · exact (orderly_alone hR).attempts hstrand ⟨by simp, halone⟩
  · exact (orderly_opening hR).attempts hstrand ⟨by simp, hopens⟩

/-! ## When one is -/

/-- The same CAs, the one named first in an active-passive pool. -/
def favouring (pool : CaPool) (id : CaId) : CaPool where
  connections := pool.connections.map fun c => { c with priority := if c.id = id then 0 else 1 }
  nodup := by
    rw [List.map_map]
    exact pool.nodup
  strategy := .activePassive
  failureThreshold := pool.failureThreshold
  cooldown := pool.cooldown

theorem sameCas_favouring (pool : CaPool) (id : CaId) : SameCas pool (favouring pool id) := by
  refine ⟨?_, rfl⟩
  rw [favouring, List.map_map]
  rfl

theorem favouring_selects {c : CaConnection} (hc : c ∈ pool.connections)
    (havailable : available s.statuses c.id = true) (e : PoolEnv) :
    ∃ ca s', ca.id = c.id ∧ s'.statuses = s.statuses ∧
      exec (favouring pool c.id) e .select s = some (some ca, s') := by
  have hmem : { c with priority := if c.id = c.id then 0 else 1 } ∈
      (favouring pool c.id).connections := List.mem_map.mpr ⟨c, hc, rfl⟩
  obtain ⟨status, hlookup, hup⟩ : ∃ status, s.statuses.lookup c.id = some status ∧
      status.health.isAvailable = true := by
    unfold available at havailable
    cases hlookup : s.statuses.lookup c.id with
    | none => simp [hlookup] at havailable
    | some status => exact ⟨status, rfl, by simpa [hlookup] using havailable⟩
  obtain ⟨status', hcandidate⟩ := Ha.mem_candidatesAmong.mpr
    ⟨hmem, List.mem_map_of_mem hmem, status, hlookup, hup⟩
  rw [← Ha.candidates_eq_among] at hcandidate
  set candidates := (favouring pool c.id).candidates s.statuses
    ((favouring pool c.id).connections.map CaConnection.id) with hcandidates
  obtain ⟨best, hbest⟩ := Option.isSome_iff_exists.mp (Ha.minBy_isSome
    (fun a b : Ha.Candidate => decide (a.1.priority > b.1.priority)) (List.ne_nil_of_mem hcandidate))
  -- the best one has the priority of the favoured one, which no other has
  have hpriority : best.1.priority ≤ 0 := by
    have hle := Ha.minBy_key_le hbest _ hcandidate
    rwa [if_pos rfl] at hle
  have hid : best.1.id = c.id := by
    have hconnection := (Ha.mem_candidatesAmong.mp ⟨best.2, Ha.minBy_mem hbest⟩).1
    obtain ⟨d, -, hd⟩ := List.mem_map.mp hconnection
    rw [← hd] at hpriority ⊢
    by_contra hne
    rw [if_neg hne] at hpriority
    cases hpriority
  have hselect : (favouring pool c.id).selectAllowed s.statuses s.counter
      ((favouring pool c.id).connections.map CaConnection.id) = (some best.1, s.counter) := by
    have hne : candidates.isEmpty = false := List.isEmpty_eq_false_iff.mpr (List.ne_nil_of_mem hcandidate)
    rw [CaPool.selectAllowed, ← hcandidates]
    unfold Ha.select
    rw [hne]
    show (Ha.selectActivePassive candidates, s.counter) = _
    rw [Ha.selectActivePassive, hbest, Option.map_some]
  refine ⟨best.1, { s with clock := s.clock + e.elapsed }, hid, rfl, ?_⟩
  simp only [exec, perform, hselect]

/-- With a retry left, a CA whose failure leaves it available is tried again before another one
    that is available, in the pool that favours it. -/
theorem tries_again (B : Base64) (cfg : CaBackendPoolConfig) (csrDer : List UInt8) (s : PoolState)
    {c d : CaConnection} (hc : c ∈ pool.connections) (hd : d ∈ pool.connections)
    (hcd : c.id ≠ d.id) (hc' : failureOpens pool.failureThreshold s.statuses c.id = false)
    (hd' : available s.statuses d.id = true) (hretries : cfg.maxRetries ≠ 0) (hrefl : ∀ s, R s s) :
    ∃ trace q t, Strand (exec (favouring pool c.id)) R (routeEnrollment B cfg csrDer) s trace q t ∧
      triesOthersFirst (favouring pool c.id) [] [] trace = false := by
  obtain ⟨k, hk⟩ := Nat.exists_eq_add_one_of_ne_zero hretries
  obtain ⟨status, hlookup, hup, hbelow⟩ : ∃ status, s.statuses.lookup c.id = some status ∧
      status.health.isAvailable = true ∧ ¬ pool.failureThreshold ≤ status.failuresAfter := by
    unfold failureOpens at hc'
    cases hlookup : s.statuses.lookup c.id with
    | none => simp [hlookup] at hc'
    | some status => exact ⟨status, rfl, by simpa [hlookup] using hc'⟩
  -- the first attempt times out, which leaves the CA available
  let e : PoolEnv := ⟨0, .timedOut⟩
  obtain ⟨ca, s₁, hca, hs₁, hselect⟩ :=
    favouring_selects hc (by rw [available, hlookup]; exact hup) e
  obtain ⟨start, s₂, hstart⟩ : ∃ start s₂, exec (favouring pool c.id) e .now s₁ =
    some (start, s₂) := ⟨_, _, rfl⟩
  obtain ⟨s₃, hpost⟩ : ∃ s₃, exec (favouring pool c.id) e
    (.post (enrollUrl ca.endpoint) (B.encode csrDer)) s₂ = some (Sent.timedOut, s₃) := ⟨_, rfl⟩
  obtain ⟨stop, s₄, hstop⟩ : ∃ stop s₄, exec (favouring pool c.id) e .now s₃ =
    some (stop, s₄) := ⟨_, _, rfl⟩
  obtain ⟨s₅, hrecord⟩ : ∃ s₅, exec (favouring pool c.id) e (.recordFailure ca.id) s₄ =
    some ((), s₅) := ⟨_, rfl⟩
  have hs₄ : s₄.statuses = s.statuses := by
    rw [statuses_of_exec hstop (.inr (.inl rfl)), statuses_of_exec hpost (.inr (.inr ⟨_, _, rfl⟩)),
      statuses_of_exec hstart (.inr (.inl rfl)), hs₁]
  have hafter := lookup_recordFailure hrecord
  rw [hca, hs₄] at hafter
  have hstill : available s₅.statuses c.id = true := by
    rw [available, hafter, if_pos rfl, hlookup, Option.map_some, Option.any_some,
      Ha.CaStatus.recordFailure_health,
      if_neg (show ¬ (favouring pool c.id).failureThreshold ≤ _ from hbelow)]
    split
    · rfl
    · exact hup
  have hother : available s₅.statuses d.id = true := by
    rw [available, hafter, if_neg (Ne.symm hcd)]
    exact hd'
  obtain ⟨ca', s₆, hca', -, hagain⟩ := favouring_selects hc hstill e
  have hretry : ∃ q, Strand (exec (favouring pool c.id)) R (attempts B cfg csrDer (k + 1)
      (some (.timeout ca.id (cfg.requestTimeout / 1000000)))) s₅
      [⟨s₅, ⟨.select, some ca'⟩, s₆⟩] q s₆ := by
    rw [attempts_succ]
    exact ⟨_, .call (hrefl _) hagain (.rest (hrefl _))⟩
  obtain ⟨q, hretry⟩ := hretry
  refine ⟨[⟨s, ⟨.select, some ca⟩, s₁⟩, ⟨s₁, ⟨.now, start⟩, s₂⟩,
    ⟨s₂, ⟨.post (enrollUrl ca.endpoint) (B.encode csrDer), .timedOut⟩, s₃⟩, ⟨s₃, ⟨.now, stop⟩, s₄⟩,
    ⟨s₄, ⟨.recordFailure ca.id, ()⟩, s₅⟩, ⟨s₅, ⟨.select, some ca'⟩, s₆⟩], q, s₆, ?_, ?_⟩
  · rw [routeEnrollment, hk, attempts_succ]
    exact .call (hrefl _) hselect (.call (hrefl _) hstart (.call (hrefl _) hpost
      (.call (hrefl _) hstop (.call (hrefl _) hrecord hretry))))
  · have huntried : ((favouring pool c.id).connections.all fun c' =>
        !available s₅.statuses c'.id || [ca.id].contains c'.id) = false := by
      rw [List.all_eq_false]
      refine ⟨{ d with priority := if d.id = c.id then 0 else 1 }, List.mem_map.mpr ⟨d, hd, rfl⟩, ?_⟩
      simp [hother, hca, Ne.symm hcd]
    have hfailed : [ca.id].contains ca'.id = true := by simp [hca, hca']
    simp only [triesOthersFirst, hfailed, huntried]
    rfl

end Calls

/-- Whatever the strategy, the priorities and the weights, and whatever the CAs answer, a CA that
    failed in the call is not tried again while another available one has not been tried: this holds
    exactly if no retry is made, or at most one CA is available, or every failure opens the circuit
    breaker of its CA. -/
theorem tries_others_first_iff (B : Base64) (cfg : CaBackendPoolConfig) (csrDer : List UInt8)
    (pool : CaPool) (statuses : Statuses) {R : PoolState → PoolState → Prop}
    (hR : Calm pool.failureThreshold R) :
    (∀ pool', SameCas pool pool' → ∀ s t trace q, s.statuses = statuses →
      Strand (exec pool') R (routeEnrollment B cfg csrDer) s trace q t →
        triesOthersFirst pool' [] [] trace = true) ↔ NoRepeats pool cfg statuses := by
  constructor
  · intro h
    by_contra hnot
    simp only [NoRepeats, not_or, not_forall] at hnot
    obtain ⟨hretries, ⟨a, ha, b, hb, hae, hbe, hab⟩, id, hid, hopens⟩ := hnot
    rw [Bool.not_eq_true] at hopens
    -- one of the two that are available is another one
    obtain ⟨id', hid', hne, hup⟩ : ∃ id' ∈ pool.connections.map CaConnection.id, id ≠ id' ∧
        available statuses id' = true := by
      by_cases hida : id = a
      · exact ⟨b, hb, fun hidb => hab (hida.symm.trans hidb), hbe⟩
      · exact ⟨a, ha, hida, hae⟩
    obtain ⟨c, hc, rfl⟩ := List.mem_map.mp hid
    obtain ⟨d, hd, rfl⟩ := List.mem_map.mp hid'
    obtain ⟨trace, q, t, hstrand, hfalse⟩ :=
      tries_again B cfg csrDer ⟨0, statuses, 0⟩ hc hd hne hopens hup hretries hR.refl
    have htrue := h _ (sameCas_favouring pool c.id) _ t trace q rfl hstrand
    rw [hfalse] at htrue
    cases htrue
  · rintro h pool' ⟨hids, hthreshold⟩ s t trace q rfl hstrand
    rw [← hthreshold] at hR
    refine NoRepeats.tries hR ?_ hstrand
    rw [NoRepeats, hids, hthreshold]
    exact h

def twoCas (failureThreshold : Nat) : CaPool where
  connections := [⟨"ca-1", "https://ca1", 1, 1⟩, ⟨"ca-2", "https://ca2", 1, 2⟩]
  nodup := by decide
  strategy := .activePassive
  failureThreshold := failureThreshold
  cooldown := 60000000000

def rawBase64 : Base64 := ⟨fun _ => "", .ok⟩

def twoTimeouts (failureThreshold : Nat) : List (Moment Op Reply PoolState) :=
  ((routeEnrollment rawBase64 ⟨10000000000, 1⟩ []).strandBy (exec (twoCas failureThreshold))
    (List.replicate 10 ⟨1, .timedOut⟩) ⟨0, (twoCas failureThreshold).newStatuses, 0⟩).1

theorem tries_others_first_two :
    (twoTimeouts 1).length = 10 ∧ triesOthersFirst (twoCas 1) [] [] (twoTimeouts 1) = true := by
  have hcalm : Calm 1 (Eq : PoolState → PoolState → Prop) :=
    ⟨fun _ => rfl, fun _ _ h _ hid => h ▸ hid, fun _ _ h _ hid => h ▸ hid⟩
  refine ⟨by decide +kernel, ?_⟩
  exact (tries_others_first_iff rawBase64 ⟨10000000000, 1⟩ [] (twoCas 1) (twoCas 1).newStatuses
    hcalm).mpr (.inr (.inr (by decide +kernel))) (twoCas 1) ⟨rfl, rfl⟩ _ _ _ _ rfl
    (strand_strandBy (fun _ => rfl) _ _ _)

/-- With a threshold of three the CA that timed out is tried again, and the other one never. -/
theorem failed_ca_retried : ∃ trace q t,
    Strand (exec (twoCas 3)) Eq (routeEnrollment rawBase64 ⟨10000000000, 1⟩ [])
      ⟨0, (twoCas 3).newStatuses, 0⟩ trace q t ∧
    triesOthersFirst (twoCas 3) [] [] trace = false :=
  ⟨twoTimeouts 3, _, _, strand_strandBy (fun _ => rfl) _ _ _, by decide +kernel⟩

end Kipuka.Ca
