import AgentWallet.Base.Checks
import AgentWallet.Base.Interleaving

/-!
# Operator credentials

`operator_credentials.rs`: the passkeys an operator may approve with are kept in one file per
profile, with the signature counter last seen for each.  `enroll` adds a credential and
`update_sign_count` stores the counter of a verified assertion, unless it does not exceed the stored
one.  Both load the whole file and replace it through a temporary file and a rename; nothing keeps
two calls apart, neither in one process nor between processes.
-/

namespace AgentWallet.Approval.OperatorCredentials

open Base Base.Runs Base.Interleaving List Base.Checks

/-! ## Credentials -/

structure OperatorApprovalCredential where
  credentialIdB64url : String
  publicKeySec1B64 : String
  rpId : String
  label : String
  registeredAtUnixMs : ℕ
  signCount : Option ℕ
deriving DecidableEq

/-- `ApprovalError`, as far as the store raises it. -/
inductive ApprovalError where
  | invalid (reason : String)
  | duplicateCredentialId (credentialIdRedacted : String)
  | notFound
  | signCounterRegression (credentialIdRedacted : String) (presented stored : ℕ)
  | io (detail : String)
  | toml (detail : String)

def redactNonce (nonce : String) : String :=
  if nonce.utf8ByteSize > 10 then
    String.ofList (nonce.toList.take 5) ++ "..." ++
      String.ofList (nonce.toList.drop (nonce.toList.length - 5))
  else nonce

def credentialIdMinBytes : ℕ := 16

def credentialIdMaxBytes : ℕ := 64

def publicKeyUncompressedSec1Len : ℕ := 65

/-- The decoder of base64url without padding, and the text of a byte in hexadecimal. -/
structure Env where
  decode : String → Option (List UInt8)
  hexByte : UInt8 → String

variable (env : Env)

def validateCredentialInvariants (credentialIdB64url publicKeySec1B64 : String) :
    Except ApprovalError Unit := do
  let credentialIdBytes ← okOr (env.decode credentialIdB64url)
    (.invalid "credential_id_b64url is not valid base64url")
  refuseIf (credentialIdBytes.length < credentialIdMinBytes ∨
      credentialIdBytes.length > credentialIdMaxBytes)
    (.invalid ("credential_id must decode to 16–64 bytes " ++
      "(CTAP2 §4.2 / WebAuthn-2 §5.4.7), got " ++ toString credentialIdBytes.length ++
      " bytes"))
  let pubkeyBytes ← okOr (env.decode publicKeySec1B64)
    (.invalid "public_key_sec1_b64 is not valid base64url")
  refuseIf (pubkeyBytes.length ≠ publicKeyUncompressedSec1Len)
    (.invalid ("public_key_sec1_b64 must decode to exactly 65 bytes (uncompressed SEC1 P-256), " ++
      "got " ++ toString pubkeyBytes.length ++ " bytes"))
  refuseIf (pubkeyBytes.headD 0 ≠ 0x04)
    (.invalid ("public_key_sec1_b64[0] must be 0x04 (uncompressed SEC1 P-256 marker), got 0x" ++
      env.hexByte (pubkeyBytes.headD 0)))

/-- The credential a call finds under an id: the first one. -/
def findCredential (id : String) (credentials : List OperatorApprovalCredential) :
    Option OperatorApprovalCredential :=
  credentials.find? fun c => decide (c.credentialIdB64url = id)

/-- `record.sign_count = Some(..)` on the first credential with the id. -/
def setSignCount (id : String) (counter : ℕ) :
    List OperatorApprovalCredential → List OperatorApprovalCredential
  | [] => []
  | c :: cs =>
    if c.credentialIdB64url = id then { c with signCount := some counter } :: cs
    else c :: setSignCount id counter cs

/-- The stored counter that a presented one does not exceed. -/
def regressed (stored : Option ℕ) (presented : ℕ) : Option ℕ :=
  stored.filter fun s => decide ((s ≠ 0 ∨ presented ≠ 0) ∧ presented ≤ s)

inductive Call where
  | enroll (credential : OperatorApprovalCredential)
  | updateSignCount (credentialIdB64url : String) (presentedCounter : ℕ)

def Call.validate : Call → Except ApprovalError Unit
  | .enroll credential =>
    validateCredentialInvariants env credential.credentialIdB64url credential.publicKeySec1B64
  | .updateSignCount _ _ => .ok ()

/-- What a call makes of the credentials it has loaded. -/
def Call.edit (credentials : List OperatorApprovalCredential) :
    Call → Except ApprovalError (List OperatorApprovalCredential)
  | .enroll credential =>
    if credentials.any fun c => decide (c.credentialIdB64url = credential.credentialIdB64url) then
      .error (.duplicateCredentialId (redactNonce credential.credentialIdB64url))
    else .ok (credentials ++ [credential])
  | .updateSignCount id presented => do
    let record ← okOr (findCredential id credentials) .notFound
    match regressed record.signCount presented with
    | some stored => .error (.signCounterRegression (redactNonce id) presented stored)
    | none => .ok (setSignCount id presented credentials)

/-! ## Interleaved calls -/

/-- The file, if it is there, and the answers given so far. -/
structure Shared where
  file : Option (List OperatorApprovalCredential)
  answers : List (Call × Except ApprovalError Unit)

/-- Where a call stands: it has loaded the file and computed what replaces it. -/
inductive Phase where
  | idle
  | loaded (call : Call) (snapshot : Option (List OperatorApprovalCredential))
      (credentials : List OperatorApprovalCredential)

inductive Action where
  /-- A call begins and loads the file, or fails to. -/
  | load (call : Call) (failure : Option ApprovalError)
  /-- The temporary file replaces the file, or a step before fails and leaves it as it is. -/
  | persist (failure : Option ApprovalError)
  /-- The process ends in the middle of a call. -/
  | crash

/-- `load`: a file that is not there is an empty registry. -/
def load (file : Option (List OperatorApprovalCredential)) (failure : Option ApprovalError) :
    Except ApprovalError (List OperatorApprovalCredential) :=
  match failure with
  | some e => .error e
  | none => .ok (file.getD [])

def begin (call : Call) (failure : Option ApprovalError)
    (file : Option (List OperatorApprovalCredential)) :
    Except ApprovalError (List OperatorApprovalCredential) := do
  call.validate env
  let credentials ← load file failure
  call.edit credentials

def Shared.answer (s : Shared) (call : Call) (r : Except ApprovalError Unit) : Shared :=
  { s with answers := s.answers ++ [(call, r)] }

def act (s : Shared) : Phase → Action → Shared × Phase
  | .idle, .load call failure =>
    match begin env call failure s.file with
    | .ok credentials => (s, .loaded call s.file credentials)
    | .error e => (s.answer call (.error e), .idle)
  | .loaded call _ credentials, .persist none =>
    (({ s with file := some credentials } : Shared).answer call (.ok ()), .idle)
  | .loaded call _ _, .persist (some e) => (s.answer call (.error e), .idle)
  | _, .crash => (s, .idle)
  | p, _ => (s, p)

def initial (file : Option (List OperatorApprovalCredential)) : Config Shared Phase :=
  ⟨⟨file, []⟩, fun _ => .idle⟩

/-! ## What should hold -/

/-- The counters accepted for a credential, in the order of the answers. -/
def accepted (id : String) (answers : List (Call × Except ApprovalError Unit)) : List ℕ :=
  answers.filterMap fun
    | (.updateSignCount id' counter, .ok ()) => if id' = id then some counter else none
    | _ => none

def storedCount (id : String) (file : Option (List OperatorApprovalCredential)) : Option ℕ :=
  (findCredential id (file.getD [])).bind OperatorApprovalCredential.signCount

def Enrolled (id : String) (file : Option (List OperatorApprovalCredential)) : Prop :=
  (findCredential id (file.getD [])).isSome = true

/-- What was enrolled is enrolled, and no counter has gone back. -/
structure Forward (file file' : Option (List OperatorApprovalCredential)) : Prop where
  enrolled : ∀ id, Enrolled id file → Enrolled id file'
  count : ∀ id n, storedCount id file = some n → n ≠ 0 →
    ∃ m, storedCount id file' = some m ∧ n ≤ m

/-- The non-zero counters accepted for a credential increase. -/
def Increasing (s : Shared) : Prop :=
  ∀ id, ((accepted id s.answers).filter (· ≠ 0)).Pairwise (· < ·)

/-- A replacement meets the file that its call has loaded. -/
def Fresh (s : Shared) : Phase → Action → Prop
  | .loaded _ snapshot _, .persist none => s.file = snapshot
  | _, _ => True

/-! ## One call -/

section

variable {id : String} {credentials credentials' : List OperatorApprovalCredential}
  {file file' file'' : Option (List OperatorApprovalCredential)}

theorem Forward.refl (file : Option (List OperatorApprovalCredential)) : Forward file file :=
  ⟨fun _ h => h, fun _ n h _ => ⟨n, h, le_rfl⟩⟩

theorem Forward.trans (h : Forward file file') (h' : Forward file' file'') :
    Forward file file'' where
  enrolled id hid := h'.enrolled id (h.enrolled id hid)
  count id n hn hpos := by
    obtain ⟨m, hm, hle⟩ := h.count id n hn hpos
    obtain ⟨k, hk, hle'⟩ := h'.count id m hm (by omega)
    exact ⟨k, hk, hle.trans hle'⟩

theorem findCredential_setSignCount (id id' : String) (counter : ℕ) :
    findCredential id' (setSignCount id counter credentials) =
      (findCredential id' credentials).map fun c =>
        if id' = id then { c with signCount := some counter } else c := by
  induction credentials with
  | nil => rfl
  | cons c cs ih =>
    unfold findCredential at ih ⊢
    unfold setSignCount
    by_cases hid : c.credentialIdB64url = id
    · rw [if_pos hid, List.find?_cons]
      by_cases hid' : c.credentialIdB64url = id'
      · simp [hid', hid.symm.trans hid']
      · -- another credential, behind the one that changes
        have hne : id' ≠ id := fun heq => hid' (hid.trans heq.symm)
        simp [hid', hne]
    · rw [if_neg hid, List.find?_cons, List.find?_cons, ih]
      by_cases hid' : c.credentialIdB64url = id'
      · have hne : id' ≠ id := fun heq => hid (hid'.trans heq)
        simp [hne]
      · simp [hid']

theorem storedCount_setSignCount (id id' : String) (counter : ℕ)
    (h : Enrolled id (some credentials)) :
    storedCount id' (some (setSignCount id counter credentials)) =
      if id' = id then some counter else storedCount id' (some credentials) := by
  unfold storedCount
  rw [Option.getD_some, findCredential_setSignCount]
  split_ifs with hid
  · subst hid
    obtain ⟨c, hc⟩ := Option.isSome_iff_exists.1 h
    rw [Option.getD_some] at hc
    simp [hc]
  · simp

theorem regressed_eq_none_iff {stored : Option ℕ} {presented : ℕ} :
    regressed stored presented = none ↔
      ∀ s, stored = some s → s < presented ∨ (s = 0 ∧ presented = 0) := by
  cases stored with
  | none => simp [regressed]
  | some s =>
    simp only [regressed, Option.filter_some, decide_eq_true_eq, Option.some.injEq, forall_eq']
    split_ifs with hregression
    · simp only [false_iff]
      omega
    · simp only [true_iff]
      omega

theorem edit_updateSignCount {counter : ℕ}
    (h : (Call.updateSignCount id counter).edit credentials = .ok credentials') :
    Enrolled id (some credentials) ∧ credentials' = setSignCount id counter credentials ∧
      ∀ s, storedCount id (some credentials) = some s → s < counter ∨ (s = 0 ∧ counter = 0) := by
  obtain ⟨record, hrecord, h⟩ := bind_eq_ok_iff.1 h
  have hfind : findCredential id credentials = some record := okOr_eq_ok_iff.1 hrecord
  split at h
  · cases h
  · rename_i hnone
    refine ⟨?_, (Except.ok.inj h).symm, fun s hs => ?_⟩
    · unfold Enrolled
      rw [Option.getD_some, hfind]
      rfl
    · unfold storedCount at hs
      rw [Option.getD_some, hfind] at hs
      exact regressed_eq_none_iff.1 hnone s hs

theorem findCredential_concat {credential c : OperatorApprovalCredential}
    (h : findCredential id credentials = some c) :
    findCredential id (credentials ++ [credential]) = some c := by
  unfold findCredential at h ⊢
  rw [List.find?_append, h]
  rfl

/-- **One call, on the file it has loaded, moves forward.** -/
theorem edit_forward {call : Call} (h : call.edit credentials = .ok credentials') :
    Forward (some credentials) (some credentials') := by
  cases call with
  | enroll credential =>
    simp only [Call.edit] at h
    split_ifs at h
    obtain rfl := Except.ok.inj h
    constructor
    · intro id hid
      obtain ⟨c, hc⟩ := Option.isSome_iff_exists.1 hid
      exact Option.isSome_iff_exists.2 ⟨c, findCredential_concat hc⟩
    · intro id n hn _
      obtain ⟨c, hc, hcount⟩ := Option.bind_eq_some_iff.1 hn
      exact ⟨n, Option.bind_eq_some_iff.2 ⟨c, findCredential_concat hc, hcount⟩, le_rfl⟩
  | updateSignCount id counter =>
    obtain ⟨henrolled, rfl, hcount⟩ := edit_updateSignCount h
    constructor
    · intro id' hid'
      unfold Enrolled at hid' ⊢
      rw [Option.getD_some] at hid' ⊢
      rw [findCredential_setSignCount, Option.isSome_map]
      exact hid'
    · intro id' n hn hpos
      rw [storedCount_setSignCount id id' counter henrolled]
      split_ifs with hid
      · subst hid
        refine ⟨counter, rfl, ?_⟩
        have := hcount n hn
        omega
      · exact ⟨n, hn, le_rfl⟩

end

/-! ## Every schedule -/

/-- Every non-zero counter accepted so far is at most the stored one. -/
structure Tracked (s : Shared) : Prop where
  increasing : Increasing s
  stored : ∀ id, ∀ n ∈ accepted id s.answers, n ≠ 0 → ∃ m, storedCount id s.file = some m ∧ n ≤ m

/-- What a call is about to write is what it makes of the file it has loaded. -/
def Loaded (p : Phase) : Prop :=
  ∀ call snapshot credentials, p = .loaded call snapshot credentials →
    call.edit (snapshot.getD []) = .ok credentials

section

variable {env} {s : Shared} {p : Phase} {call : Call}

theorem accepted_append (id : String) (answers : List (Call × Except ApprovalError Unit))
    (answer : Call × Except ApprovalError Unit) :
    accepted id (answers ++ [answer]) = accepted id answers ++ accepted id [answer] :=
  filterMap_append

theorem Tracked.refuse (h : Tracked s) (call : Call) (e : ApprovalError) :
    Tracked (s.answer call (.error e)) := by
  have hnone : ∀ id, accepted id (s.answer call (.error e)).answers = accepted id s.answers := by
    unfold Shared.answer
    cases call <;> simp [accepted]
  constructor
  · intro id
    rw [hnone]
    exact h.increasing id
  · intro id n hn
    rw [hnone] at hn
    exact h.stored id n hn

theorem Tracked.replace (h : Tracked s) {credentials : List OperatorApprovalCredential}
    (hedit : call.edit (s.file.getD []) = .ok credentials) :
    Tracked (({ s with file := some credentials } : Shared).answer call (.ok ())) := by
  have hforward := edit_forward hedit
  have hkept : ∀ id, ∀ n ∈ accepted id s.answers, n ≠ 0 →
      ∃ m, storedCount id (some credentials) = some m ∧ n ≤ m := by
    intro id n hn hpos
    obtain ⟨m, hm, hle⟩ := h.stored id n hn hpos
    obtain ⟨k, hk, hle'⟩ := hforward.count id m hm (by omega)
    exact ⟨k, hk, hle.trans hle'⟩
  cases call with
  | enroll credential =>
    have hsame : ∀ id, accepted id (s.answers ++ [(.enroll credential, .ok ())]) =
        accepted id s.answers := by
      intro id
      rw [accepted_append]
      exact append_nil _
    refine ⟨fun id => ?_, fun id n hn => ?_⟩
    · unfold Shared.answer
      rw [hsame]
      exact h.increasing id
    · unfold Shared.answer at hn
      rw [hsame] at hn
      exact hkept id n hn
  | updateSignCount id counter =>
    obtain ⟨henrolled, rfl, hcount⟩ := edit_updateSignCount hedit
    have hanswer : ∀ id', accepted id' (s.answers ++ [(.updateSignCount id counter, .ok ())]) =
        accepted id' s.answers ++ if id = id' then [counter] else [] := by
      intro id'
      unfold accepted
      split_ifs with hid <;> simp [hid]
    refine ⟨fun id' => ?_, fun id' n hn hpos => ?_⟩
    · unfold Shared.answer
      rw [hanswer, filter_append, pairwise_append]
      refine ⟨h.increasing id', ?_, fun n hn m hm => ?_⟩
      · split_ifs
        · exact List.Pairwise.filter _ (pairwise_singleton _ _)
        · exact List.Pairwise.nil
      · -- the counter exceeds the stored one, and that all the others
        obtain ⟨hn, hpos⟩ := mem_filter.1 hn
        have hmem := mem_of_mem_filter hm
        split_ifs at hmem with hid
        · subst hid
          obtain rfl := mem_singleton.1 hmem
          obtain ⟨k, hk, hle⟩ := h.stored id n hn (of_decide_eq_true hpos)
          have hexceeds := hcount k hk
          have hpos : n ≠ 0 := of_decide_eq_true hpos
          omega
        · cases hmem
    · unfold Shared.answer at hn
      rw [hanswer, mem_append] at hn
      rcases hn with hn | hn
      · exact hkept id' n hn hpos
      · split_ifs at hn with hid
        · subst hid
          obtain rfl := mem_singleton.1 hn
          refine ⟨n, ?_, le_rfl⟩
          exact (storedCount_setSignCount id id n henrolled).trans (if_pos rfl)
        · cases hn

theorem act_cases (env : Env) (s : Shared) (p : Phase) (a : Action) :
    ((act env s p a).1 = s ∧ ((act env s p a).2 = p ∨ (act env s p a).2 = .idle ∨
      ∃ call credentials, (act env s p a).2 = .loaded call s.file credentials ∧
        call.edit (s.file.getD []) = .ok credentials)) ∨
    (∃ call e, act env s p a = (s.answer call (.error e), .idle)) ∨
    ∃ call snapshot credentials, p = .loaded call snapshot credentials ∧ a = .persist none ∧
      act env s p a =
        (({ s with file := some credentials } : Shared).answer call (.ok ()), .idle) := by
  cases p with
  | idle =>
    cases a with
    | load call failure =>
      simp only [act]
      rcases hbegin : begin env call failure s.file with e | credentials
      · exact .inr (.inl ⟨call, e, rfl⟩)
      · refine .inl ⟨rfl, .inr (.inr ⟨call, credentials, rfl, ?_⟩)⟩
        obtain ⟨-, -, hbegin⟩ := bind_eq_ok_iff.1 hbegin
        obtain ⟨loaded, hload, hedit⟩ := bind_eq_ok_iff.1 hbegin
        cases failure with
        | none =>
          obtain rfl := Except.ok.inj hload
          exact hedit
        | some e => cases hload
    | persist failure | crash => exact .inl ⟨rfl, .inl rfl⟩
  | loaded call snapshot credentials =>
    cases a with
    | load call failure => exact .inl ⟨rfl, .inl rfl⟩
    | persist failure =>
      cases failure with
      | none => exact .inr (.inr ⟨call, snapshot, credentials, rfl, rfl, rfl⟩)
      | some e => exact .inr (.inl ⟨call, e, rfl⟩)
    | crash => exact .inl ⟨rfl, .inr (.inl rfl)⟩

theorem Loaded.idle : Loaded .idle := by
  intro call snapshot credentials h
  cases h

theorem act_tracked {file : Option (List OperatorApprovalCredential)} (a : Action)
    (hs : Tracked s ∧ Forward file s.file) (hp : Loaded p) (hfresh : Fresh s p a) :
    (Tracked (act env s p a).1 ∧ Forward file (act env s p a).1.file) ∧
      Loaded (act env s p a).2 := by
  rcases act_cases env s p a with ⟨hsame, hphase⟩ | ⟨call, e, hact⟩ |
    ⟨call, snapshot, credentials, rfl, rfl, hact⟩
  · rw [hsame]
    refine ⟨hs, ?_⟩
    rcases hphase with hphase | hphase | ⟨call, credentials, hphase, hedit⟩
    · rwa [hphase]
    · rw [hphase]
      exact Loaded.idle
    · rw [hphase]
      intro call' snapshot' credentials' heq
      cases heq
      exact hedit
  · rw [hact]
    exact ⟨⟨hs.1.refuse call e, hs.2⟩, Loaded.idle⟩
  · have hfile : s.file = snapshot := hfresh
    have hedit : call.edit (s.file.getD []) = .ok credentials := by
      rw [hfile]
      exact hp call snapshot credentials rfl
    have hforward : Forward s.file (some credentials) :=
      ⟨(edit_forward hedit).enrolled, (edit_forward hedit).count⟩
    exact ⟨⟨hs.1.replace hedit, hs.2.trans hforward⟩, Loaded.idle⟩

theorem run_tracked {c : Config Shared Phase} {file : Option (List OperatorApprovalCredential)}
    (hshared : Tracked c.shared ∧ Forward file c.shared.file) (hphase : ∀ i, Loaded (c.phase i))
    (schedule : List (ℕ × Action)) (hfresh : Along (advance (act env)) (Meets Fresh) c schedule) :
    Inv (fun s => Tracked s ∧ Forward file s.file) (fun _ p => Loaded p) (fun _ _ => True)
      (run (advance (act env)) c schedule) :=
  run_inv (I := fun s => Tracked s ∧ Forward file s.file) (J := fun _ p => Loaded p)
    (fun _ _ _ => trivial) (fun _ _ a hs hp hok => act_tracked a hs hp hok)
    (fun _ _ _ _ _ _ hq _ _ => ⟨hq, trivial⟩) ⟨hshared, hphase, fun _ _ _ => trivial⟩ schedule hfresh

end

/-- **As long as every replacement meets the file its call has loaded**, in every state that is
reached the non-zero counters accepted for a credential increase, and from any state on to any later
one what is enrolled stays enrolled and no stored counter goes back. -/
theorem counters_move_forward (env : Env) (file : Option (List OperatorApprovalCredential))
    (before after : List (ℕ × Action))
    (hfresh : Along (advance (act env)) (Meets Fresh) (initial file) (before ++ after)) :
    Increasing (run (advance (act env)) (initial file) (before ++ after)).shared ∧
      Forward (run (advance (act env)) (initial file) before).shared.file
        (run (advance (act env)) (initial file) (before ++ after)).shared.file := by
  have hstart : Tracked (initial file).shared :=
    ⟨fun id => List.Pairwise.nil, fun id n hn => by cases hn⟩
  have hmid := run_tracked ⟨hstart, Forward.refl file⟩ (fun _ => Loaded.idle) before hfresh.left
  have hend := run_tracked ⟨hmid.shared.1, Forward.refl _⟩ hmid.phase after hfresh.right
  rw [run_append]
  exact ⟨hend.shared.1.increasing, hend.shared.2⟩

/-! ## Calls that overlap -/

/-- Sixteen bytes for an id, an uncompressed point for a key. -/
def plainEnv : Env where
  decode text := some (if text.startsWith "key" then 0x04 :: List.replicate 64 0
    else List.replicate 16 0)
  hexByte _ := "00"

def laptop : OperatorApprovalCredential where
  credentialIdB64url := "laptop-credential-id-0"
  publicKeySec1B64 := "key-of-the-laptop"
  rpId := "approve.example"
  label := "laptop"
  registeredAtUnixMs := 0
  signCount := some 1

def phone : OperatorApprovalCredential :=
  { laptop with credentialIdB64url := "phone-credential-id-00", label := "phone" }

def tablet : OperatorApprovalCredential :=
  { laptop with credentialIdB64url := "tablet-credential-id-0", label := "tablet" }

/-- A request that presents a counter of the laptop. -/
def login (request count : ℕ) : ℕ × Action :=
  (request, .load (.updateSignCount laptop.credentialIdB64url count) none)

/-- The state behind some steps. -/
def after (file : Option (List OperatorApprovalCredential)) (steps : List (ℕ × Action)) : Shared :=
  (run (advance (act plainEnv)) (initial file) steps).shared

/-- The requests for one login after the other. -/
theorem logins_in_turn :
    Increasing (after (some [laptop])
      ([login 0 5, (0, .persist none)] ++ [login 1 5, (1, .persist none)])) ∧
    Forward (after (some [laptop]) [login 0 5, (0, .persist none)]).file (after (some [laptop])
      ([login 0 5, (0, .persist none)] ++ [login 1 5, (1, .persist none)])).file :=
  counters_move_forward plainEnv (some [laptop]) _ _ ⟨trivial, rfl, trivial, trivial, trivial⟩

/-- Two requests that load before either replaces: the same counter is accepted twice, a stored
counter goes back, and an enrolment is lost. -/
theorem concurrent_calls_overwrite :
    accepted laptop.credentialIdB64url (after (some [laptop])
      [login 0 5, login 1 5, (0, .persist none), (1, .persist none)]).answers = [5, 5] ∧
    (storedCount laptop.credentialIdB64url
        (after (some [laptop]) [login 0 5, login 1 9, (1, .persist none)]).file = some 9 ∧
      storedCount laptop.credentialIdB64url (after (some [laptop])
        [login 0 5, login 1 9, (1, .persist none), (0, .persist none)]).file = some 5) ∧
    (after none [(0, .load (.enroll phone) none), (1, .load (.enroll tablet) none),
      (0, .persist none)]).file = some [phone] ∧
    (after none [(0, .load (.enroll phone) none), (1, .load (.enroll tablet) none),
      (0, .persist none), (1, .persist none)]).file = some [tablet] := by
  decide +kernel

end AgentWallet.Approval.OperatorCredentials
