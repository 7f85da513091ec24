/-
  Whose key a client gets: `post_serverkeygen` against a CA with any answers and a KRA with any
  archive.
-/
import Kipuka.Keygen.Serverkeygen
import Mathlib.Data.List.Nodup

namespace Kipuka.Keygen

open Generic Auth

/-! ## The archive -/

/-- A key in the archive. Its id is the end of its URL, so it has no slash. -/
structure ArchivedKey where
  keyId : String
  clientKeyId : String
  algorithm : String
  size : Nat
  active : Bool
  key : List UInt8
  keyId_ne : keyId ≠ ""
  keyId_plain : '/' ∉ keyId.toList

structure Archive where
  keys : List ArchivedKey
  unique : (keys.map ArchivedKey.keyId).Nodup

namespace Archive

def finds (clientKeyId : Option String) (k : ArchivedKey) : Bool :=
  k.active && (clientKeyId.all fun id => k.clientKeyId = id)

def search (archive : Archive) (clientKeyId : Option String) (maxResults : Nat) :
    List ArchivedKey :=
  (archive.keys.filter (finds clientKeyId)).take maxResults

/-- The first active key of a common name; the first active key of all where it has none. -/
def picked (archive : Archive) (cn : String) : Option ArchivedKey :=
  archive.keys.find? (finds (some cn)) <|> archive.keys.find? (finds none)

theorem head?_search (archive : Archive) (clientKeyId : Option String) (n : Nat) :
    (archive.search clientKeyId (n + 1)).head? = archive.keys.find? (finds clientKeyId) := by
  unfold search
  rw [List.head?_take, if_neg (Nat.succ_ne_zero n), List.head?_filter]

theorem eq_of_keyId {archive : Archive} {k k' : ArchivedKey} (hk : k ∈ archive.keys)
    (hk' : k' ∈ archive.keys) (h : k.keyId = k'.keyId) : k = k' :=
  List.inj_on_of_nodup_map archive.unique hk hk' h

end Archive

def ArchivedKey.info (baseUrl : String) (k : ArchivedKey) : KeyInfo where
  keyURL := some (.str (baseUrl ++ "/" ++ k.keyId))
  clientKeyID := some (.str k.clientKeyId)
  algorithm := some (.str k.algorithm)
  size := some k.size
  status := some (.str "active")

def ArchivedKey.entry (k : ArchivedKey) : KeySearchEntry :=
  ⟨k.keyId, k.clientKeyId, k.algorithm, k.size.toUInt32, "active"⟩

theorem lastSegment_append {base id : String} (h : '/' ∉ id.toList) :
    lastSegment (base ++ "/" ++ id) = id := by
  have hid : ∀ c ∈ id.toList.reverse, decide (c ≠ '/') = true := by
    intro c hc
    exact decide_eq_true fun hslash => h (hslash ▸ List.mem_reverse.mp hc)
  have hreverse : (base ++ "/" ++ id).toList.reverse =
      id.toList.reverse ++ ('/' :: base.toList.reverse) := by
    simp
  unfold lastSegment List.rtakeWhile
  rw [hreverse, List.takeWhile_append_of_pos hid, List.takeWhile_cons_of_neg (by decide),
    List.append_nil, List.reverse_reverse, String.ofList_toList]

theorem keySearchEntry_info (baseUrl : String) (k : ArchivedKey) :
    keySearchEntry (k.info baseUrl) = some k.entry := by
  have hid : lastSegment ((asStr (k.info baseUrl).keyURL).getD "") = k.keyId :=
    lastSegment_append k.keyId_plain
  simp only [keySearchEntry, hid, if_neg k.keyId_ne]
  rfl

/-! ## The parties -/

structure Environment where
  admitted : Except KipukaError Unit
  random : Nat → Except String (List UInt8)
  client : Except DogtagError Unit
  /-- The CA's answers: to the submission, the review, the approval, and its certificates. -/
  submitted : Except DogtagError (Option (List EnrollEntry))
  reviewed : Except DogtagError String
  approved : Except DogtagError Approval
  certificate : String → Except DogtagError (List UInt8)
  /-- The KRA: whether it is there, which searches fail, and what it recovers. -/
  kra : Except DogtagError Unit
  searchFault : Option String → Option DogtagError
  baseUrl : String
  archive : Archive
  transport : Except DogtagError (List UInt8)
  retrieved : String → String → Except DogtagError RetrieveResponse

namespace Environment

def answer (env : Environment) : (op : Op) → Reply op
  | .admitEnrollment _ _ => env.admitted
  | .recordAuditEvent _ _ => ()
  | .recordAuditEventWithActor _ _ _ => ()
  | .randBytes n => env.random n
  | .getClient => env.client
  | .caLogin => ()
  | .submit _ => env.submitted
  | .review _ => env.reviewed
  | .approve _ _ => env.approved
  | .fetchCertDer certId => env.certificate certId
  | .kraClient => env.kra
  | .kraLogin => ()
  | .keySearch clientKeyId maxResults =>
    match env.searchFault clientKeyId with
    | some e => .error e
    | none => .ok (some ((env.archive.search clientKeyId maxResults).map
        (ArchivedKey.info env.baseUrl)))
  | .transportCert => env.transport
  | .retrieve keyId wrapped => env.retrieved keyId wrapped

def entry (env : Environment) : Option EnrollEntry :=
  env.submitted.toOption.bind fun entries => (entries.getD []).head?

/-- The CA leaves the request pending, so that it is approved and answered with a PKCS#12. -/
def ViaPkcs12 (env : Environment) : Prop := ∃ e, env.entry = some e ∧ e.isPending = true

def issued (env : Environment) : Option (List UInt8) :=
  env.entry.bind fun e => (env.certificate e.cert).toOption

section Assumptions

variable (L : CryptoLib) (Belongs : List UInt8 → List UInt8 → Prop) (env : Environment)

/-- Assumed of the CA: the key and the certificate of a PKCS#12 belong together. -/
def PairsPkcs12 : Prop :=
  ∀ approval der p12 password content key cert, env.approved = .ok approval →
    L.base64Decode (asBytes (L.base64Encode approval.body)) = .ok der → L.pkcs12 der = .ok p12 →
    p12 password = .ok content → content.pkey = some (.ok key) →
    content.cert = some (.ok cert) → Belongs key cert

/-- Assumed of the KRA: a key that is recovered is the one stored under the id. -/
def RecoversStored : Prop :=
  ∀ keyId key, (recoverKeyNoCert L keyId).run.eval env.answer = .ok key →
    ∃ k ∈ env.archive.keys, k.keyId = keyId ∧ k.key = key

end Assumptions

end Environment

def templateCn (L : CryptoLib) (req : KeygenRequest) : Option String :=
  (decodeEstBase64 L req.body).toOption.bind fun csrDer =>
    (L.x509Req csrDer).toOption.map fun subject => firstCn subject req.identity

/-- The archive's first choice for the template's common name is the key of the certificate that
    the CA issued. -/
def PicksOwnKey (L : CryptoLib) (Belongs : List UInt8 → List UInt8 → Prop) (env : Environment)
    (req : KeygenRequest) : Prop :=
  ∀ cn cert k, templateCn L req = some cn → env.issued = some cert →
    env.archive.picked cn = some k → Belongs k.key cert

/-! ## Path B finds the archive's first choice -/

section Pairing

variable {L : CryptoLib} {env : Environment} {req : KeygenRequest} {cn : String}

theorem Archive.picked_mem {archive : Archive} {k : ArchivedKey} (h : archive.picked cn = some k) :
    k ∈ archive.keys := by
  unfold Archive.picked at h
  rcases Option.or_eq_some_iff.mp (Option.orElse_eq_or.symm.trans h) with hown | ⟨-, hany⟩
  · exact List.mem_of_find?_eq_some hown
  · exact List.mem_of_find?_eq_some hany

variable {keys : List KeySearchEntry}

theorem searchKeys_answer {clientKeyId : Option String} {maxResults : Nat}
    (h : (searchKeys clientKeyId maxResults).run.eval env.answer = .ok keys) :
    keys = (env.archive.search clientKeyId maxResults).map ArchivedKey.entry := by
  obtain ⟨infos, hinfos, rfl⟩ := searchKeys_ok h
  change (match env.searchFault clientKeyId with
    | some e => .error e
    | none => .ok (some ((env.archive.search clientKeyId maxResults).map
        (ArchivedKey.info env.baseUrl)))) = Except.ok infos at hinfos
  split at hinfos
  · cases hinfos
  · cases hinfos
    have hentry : keySearchEntry ∘ ArchivedKey.info env.baseUrl = some ∘ ArchivedKey.entry := by
      funext k
      rw [Function.comp_apply, Function.comp_apply, keySearchEntry_info]
    rw [Option.getD_some, List.filterMap_map, hentry, List.filterMap_eq_map]

theorem findKeys_ok (h : (findKeys cn).run.eval env.answer = .ok keys) :
    keys.head? = (env.archive.picked cn).map ArchivedKey.entry := by
  unfold findKeys at h
  obtain ⟨own, hown, hrest⟩ := (Prog.eval_seq env.answer).mp h
  rw [Prog.eval_mapErr] at hown
  have howned := searchKeys_answer (mapError_eq_ok.mp hown)
  have hhead : own.head? = (env.archive.keys.find? (Archive.finds (some cn))).map
      ArchivedKey.entry := by
    rw [howned, List.head?_map, env.archive.head?_search (some cn) 2]
  unfold Archive.picked
  split at hrest
  · next hempty =>
    rw [Prog.eval_mapErr] at hrest
    rw [searchKeys_answer (mapError_eq_ok.mp hrest), List.head?_map,
      env.archive.head?_search none 0]
    rw [List.isEmpty_iff.mp hempty] at hhead
    rw [Option.map_eq_none_iff.mp hhead.symm]
    rfl
  · next hne =>
    cases hrest
    rw [hhead]
    cases hfind : env.archive.keys.find? (Archive.finds (some cn)) with
    | none =>
      rw [hfind] at hhead
      exact absurd (List.isEmpty_iff.mpr (List.head?_eq_none_iff.mp hhead)) hne
    | some k => rfl

variable {resp : KeygenResponse}

theorem fromArchive_ok {certificateDer : Option (List UInt8)} (hrec : env.RecoversStored L)
    (h : (fromArchive L req cn certificateDer).run.eval env.answer = .ok resp) :
    certificateDer = some resp.certDer ∧
      ∃ k, env.archive.picked cn = some k ∧ resp.privateKeyDer = k.key := by
  unfold fromArchive at h
  obtain ⟨cert, hcert, h⟩ := (Prog.eval_seq env.answer).mp h
  obtain ⟨⟨⟩, -, h⟩ := (Prog.eval_seq env.answer).mp h
  obtain ⟨keys, hkeys, h⟩ := (Prog.eval_seq env.answer).mp h
  obtain ⟨keyEntry, hentry, h⟩ := (Prog.eval_seq env.answer).mp h
  obtain ⟨⟨⟩, -, h⟩ := (Prog.eval_seq env.answer).mp h
  obtain ⟨keyDer, hkey, h⟩ := (Prog.eval_seq env.answer).mp h
  cases h
  rw [Prog.eval_ofExcept] at hcert hentry
  rw [Prog.eval_mapErr] at hkey
  refine ⟨okOrElse_eq_ok.mp hcert, ?_⟩
  -- the entry is the archive's first choice, and its id names no other key
  have hhead := (findKeys_ok hkeys).symm.trans (okOrElse_eq_ok.mp hentry)
  obtain ⟨k, hpicked, hk⟩ := Option.map_eq_some_iff.mp hhead
  obtain ⟨k', hmem, hid, hkey'⟩ := hrec _ _ (mapError_eq_ok.mp hkey)
  have hsame : k' = k := Archive.eq_of_keyId hmem (Archive.picked_mem hpicked) (by
    rw [hid, ← hk]
    rfl)
  exact ⟨k, hpicked, by rw [← hsame, hkey']⟩

/-! ## Path A takes both from the PKCS#12 -/

theorem fromPkcs12_ok {p12B64 password : String}
    (h : fromPkcs12 L p12B64 password none = .ok resp) :
    ∃ der p12 content, L.base64Decode (asBytes p12B64) = .ok der ∧ L.pkcs12 der = .ok p12 ∧
      p12 password = .ok content ∧ content.pkey = some (.ok resp.privateKeyDer) ∧
      content.cert = some (.ok resp.certDer) := by
  unfold fromPkcs12 at h
  simp only [except_bind_eq_ok, mapError_eq_ok, okOrElse_eq_ok] at h
  obtain ⟨der, hder, p12, hp12, content, hcontent, pkey, hpkey, keyDer, hkey, certDer, hcert, h⟩ := h
  cases h
  refine ⟨der, p12, content, hder, hp12, hcontent, hkey ▸ hpkey, ?_⟩
  unfold pkcs12Cert at hcert
  split at hcert
  · next cert hc =>
    rw [hc, mapError_eq_ok.mp hcert]
  · cases hcert

/-! ## The route -/

variable {csrDer : List UInt8}

theorem sskgEnroll_ok {cfg : KeygenConfig} {answer : (op : Op) → Reply op}
    (h : (sskgEnroll L cfg req csrDer).run.eval answer = .ok resp) :
    ∃ subject password result, ∃ keyType : String × Nat, L.x509Req csrDer = .ok subject ∧
      (serverKeygen L (cfg.sskgProfileId.getD "caServerKeygenEST") (firstCn subject req.identity)
        (firstCn subject req.identity) password keyType.1 keyType.2).run.eval answer = .ok result ∧
      (sskgPair L req (firstCn subject req.identity) password result).run.eval answer =
        .ok resp := by
  unfold sskgEnroll at h
  obtain ⟨subject, hsubject, h⟩ := (Prog.eval_seq answer).mp h
  obtain ⟨keyType, -, h⟩ := (Prog.eval_seq answer).mp h
  obtain ⟨rand, -, h⟩ := (Prog.eval_seq answer).mp h
  obtain ⟨⟨⟩, -, h⟩ := (Prog.eval_seq answer).mp h
  obtain ⟨result, hresult, h⟩ := (Prog.eval_seq answer).mp h
  obtain ⟨response, hresponse, h⟩ := (Prog.eval_seq answer).mp h
  obtain ⟨pkcs7, -, h⟩ := (Prog.eval_seq answer).mp h
  obtain ⟨⟨⟩, -, h⟩ := (Prog.eval_seq answer).mp h
  cases h
  rw [Prog.eval_ofExcept] at hsubject
  rw [Prog.eval_mapErr] at hresult
  exact ⟨subject, hexEncode rand, result, keyType, mapError_eq_ok.mp hsubject,
    mapError_eq_ok.mp hresult, hresponse⟩

theorem entry_eq {entries : List EnrollEntry} {e : EnrollEntry}
    (h : env.submitted = .ok (some entries)) (he : entries.head? = some e) :
    env.entry = some e := by
  unfold Environment.entry
  rw [h]
  exact he

theorem templateCn_eq {subject : Name}
    (hdecode : decodeEstBase64 L req.body = .ok csrDer) (hsubject : L.x509Req csrDer = .ok subject) :
    templateCn L req = some (firstCn subject req.identity) := by
  unfold templateCn
  rw [hdecode]
  show ((L.x509Req csrDer).toOption.map _) = _
  rw [hsubject]
  rfl

/-- The private key that a client gets belongs to the certificate it gets if and only if both came
    in a PKCS#12, or the archive's first choice for the common name is the certificate's key. -/
theorem key_belongs_iff {cfg : KeygenConfig} {resp : KeygenResponse}
    {Belongs : List UInt8 → List UInt8 → Prop} (hpair : env.PairsPkcs12 L Belongs)
    (hrec : env.RecoversStored L)
    (h : (postServerkeygen L cfg req).run.eval env.answer = .ok resp) :
    Belongs resp.privateKeyDer resp.certDer ↔ env.ViaPkcs12 ∨ PicksOwnKey L Belongs env req := by
  obtain ⟨csrDer, hadmit, henroll⟩ := (Prog.eval_seq env.answer).mp h
  obtain ⟨hdecode, -⟩ := admitTemplate_ok hadmit
  obtain ⟨subject, password, result, keyType, hsubject, hresult, hresp⟩ := sskgEnroll_ok henroll
  obtain ⟨entries, e, hsubmitted, hhead, hresult⟩ := serverKeygen_ok hresult
  have hentry : env.entry = some e := entry_eq hsubmitted hhead
  have hcn := templateCn_eq hdecode hsubject
  unfold sskgPair at hresp
  split at hresult
  · next hpending =>
    obtain ⟨hnone, reviewXml, approval, happroval, hp12⟩ := hresult
    rw [hp12, hnone] at hresp
    obtain ⟨der, p12, content, hder, hopen, hcontent, hkey, hcert⟩ := fromPkcs12_ok hresp
    have hbelongs : Belongs resp.privateKeyDer resp.certDer :=
      hpair approval der p12 password content _ _ happroval hder hopen hcontent hkey hcert
    exact ⟨fun _ => .inl ⟨e, hentry, hpending⟩, fun _ => hbelongs⟩
  · next hpending =>
    obtain ⟨hnone, hfetched⟩ := hresult
    rw [hnone] at hresp
    obtain ⟨hcert, k, hpicked, hkey⟩ := fromArchive_ok hrec hresp
    have hissued : env.issued = some resp.certDer := by
      have hder : env.certificate e.cert = .ok resp.certDer := (hfetched _ hcert).2
      unfold Environment.issued
      rw [hentry]
      show (env.certificate e.cert).toOption = _
      rw [hder]
      rfl
    rw [hkey]
    constructor
    · intro hbelongs
      refine .inr ?_
      intro cn' cert' k' hcn' hissued' hpicked'
      cases hcn.symm.trans hcn'
      cases hissued.symm.trans hissued'
      cases hpicked.symm.trans hpicked'
      exact hbelongs
    · rintro (⟨e', hentry', hpending'⟩ | hpicks)
      · cases hentry.symm.trans hentry'
        exact absurd hpending' hpending
      · exact hpicks _ _ _ hcn hissued hpicked

end Pairing

/-! ### An archive with the key of another client, and one where the key is found -/

def archived (keyId clientKeyId key : String) (hne : keyId ≠ "") (hplain : '/' ∉ keyId.toList) :
    ArchivedKey :=
  ⟨keyId, clientKeyId, "EC", 256, true, asBytes key, hne, hplain⟩

def bobKey : ArchivedKey := archived "1" "bob" "bob-key" (by decide) (by decide)

def aliceKey (clientKeyId : String) : ArchivedKey :=
  archived "2" clientKeyId "alice-key" (by decide) (by decide)

def bobAndAlice (clientKeyId : String) : Archive :=
  ⟨[bobKey, aliceKey clientKeyId], by show ["1", "2"].Nodup; decide⟩

def wrappedBody (key : List UInt8) : RetrieveBody :=
  ⟨(wrappedKeys.find? fun pair => pair.2 = key).map fun pair => .str (base64Encode pair.1), none, ""⟩

def archiveEnv (archive : Archive) : Environment where
  admitted := .ok ()
  random := fun n => .ok (List.replicate n 7)
  client := .ok ()
  submitted := approving (.submit (requestFor "alice"))
  reviewed := .error (.apiError 404 "")
  approved := .error (.apiError 404 "")
  certificate := fun _ => .ok (asBytes "alice")
  kra := .ok ()
  searchFault := fun _ => none
  baseUrl := "https://kra/keys"
  archive := archive
  transport := .ok []
  retrieved := fun keyId _ =>
    match archive.keys.find? fun k => k.keyId = keyId with
    | none => .error (.apiError 404 "")
    | some k => .ok (.json (.ok (wrappedBody k.key)))

def aliceTemplate : Pkcs10.Request :=
  ⟨["alice"], [], 0x5463816B304C1E204B6A91FB7D722094DA16AABEAB6D9EA6104CC4F0D5C28A49,
    0x28ED8F17800D726342CBCF594B28E9E28686E365E5981486CD26E92417C9D8D7⟩

def aliceLib : CryptoLib := plainLib aliceTemplate

def aliceRequest : KeygenRequest := requestOf "alice" aliceTemplate

/-- Certificates and keys of the samples are texts that name their owner. -/
def BelongsByName (key cert : List UInt8) : Prop := key = cert ++ asBytes "-key"

theorem archiveEnv_pairs (archive : Archive) :
    (archiveEnv archive).PairsPkcs12 aliceLib BelongsByName := by
  intro approval der p12 password content key cert happroved
  cases happroved

theorem archiveEnv_recovers (clientKeyId : String) :
    (archiveEnv (bobAndAlice clientKeyId)).RecoversStored aliceLib := by
  intro keyId key h
  unfold recoverKeyNoCert recoverKeyInner at h
  obtain ⟨⟨⟩, -, h⟩ := (Prog.eval_seq _).mp h
  obtain ⟨key', hrandom, h⟩ := (Prog.eval_seq _).mp h
  obtain ⟨transportDer, -, h⟩ := (Prog.eval_seq _).mp h
  obtain ⟨wrapped, -, h⟩ := (Prog.eval_seq _).mp h
  obtain ⟨resp, hresp, h⟩ := (Prog.eval_seq _).mp h
  rw [Prog.eval_mapErr] at hresp
  have hretrieved : (archiveEnv (bobAndAlice clientKeyId)).retrieved keyId wrapped = .ok resp :=
    mapError_eq_ok.mp hresp
  simp only [archiveEnv] at hretrieved
  split at hretrieved
  · cases hretrieved
  · next k hfind =>
    have hmem : k ∈ (bobAndAlice clientKeyId).keys := List.mem_of_find?_eq_some hfind
    have hid : k.keyId = keyId := by simpa using List.find?_some hfind
    have hunwrap : unwrapKey aliceLib sessionKey (wrappedBody k.key) = .ok k.key := by
      simp only [bobAndAlice, List.mem_cons, List.not_mem_nil, or_false] at hmem
      rcases hmem with rfl | rfl
      · decide +kernel
      · show unwrapKey _ _ (wrappedBody (asBytes "alice-key")) = .ok (asBytes "alice-key")
        decide +kernel
    cases hrandom
    cases hretrieved
    refine ⟨k, hmem, hid, Except.ok.inj (hunwrap.symm.trans ?_)⟩
    exact h

/-- The CA archives `alice`'s key under the subject DN. The search by common name finds nothing,
    the one without a filter finds `bob`'s key, and `alice` gets it. -/
theorem key_of_other_client :
    (archiveEnv (bobAndAlice "CN=alice")).PairsPkcs12 aliceLib BelongsByName ∧
    (archiveEnv (bobAndAlice "CN=alice")).RecoversStored aliceLib ∧
    (postServerkeygen aliceLib keygenConfig aliceRequest).run.eval
      (archiveEnv (bobAndAlice "CN=alice")).answer = .ok ⟨asBytes "alice", asBytes "bob-key"⟩ ∧
    ¬ BelongsByName (asBytes "bob-key") (asBytes "alice") :=
  ⟨archiveEnv_pairs _, archiveEnv_recovers _, by decide +kernel, by
    unfold BelongsByName
    decide +kernel⟩

/-- Archived under the common name, `alice`'s key is found. -/
theorem key_belongs_iff_own :
    (postServerkeygen aliceLib keygenConfig aliceRequest).run.eval
      (archiveEnv (bobAndAlice "alice")).answer = .ok ⟨asBytes "alice", asBytes "alice-key"⟩ ∧
    BelongsByName (asBytes "alice-key") (asBytes "alice") := by
  have hok : (postServerkeygen aliceLib keygenConfig aliceRequest).run.eval
      (archiveEnv (bobAndAlice "alice")).answer =
        .ok ⟨asBytes "alice", asBytes "alice-key"⟩ := by decide +kernel
  refine ⟨hok, (key_belongs_iff (archiveEnv_pairs _) (archiveEnv_recovers "alice") hok).mpr
    (.inr ?_)⟩
  have hcn : templateCn aliceLib aliceRequest = some "alice" := by decide +kernel
  intro cn cert k hcn' hissued hpicked
  cases hcn.symm.trans hcn'
  cases hissued
  cases hpicked
  show asBytes "alice-key" = asBytes "alice" ++ asBytes "-key"
  decide +kernel

end Kipuka.Keygen
