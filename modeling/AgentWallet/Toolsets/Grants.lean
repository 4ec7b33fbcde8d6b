import AgentWallet.Toolsets.Install

/-!
# First-invoke grants of toolsets

`toolset_grant.rs` and the gated resolver of the runtime, over the directory of the installed
toolsets.  A grant names a toolset by its package name only, and neither an install nor an uninstall
touches the grants: `revoke_toolset` is there, but nothing calls it.  So a grant that was recorded
for one installation is found for the next one under the same name (`grant_outlives_uninstall`).
-/

namespace AgentWallet.Toolsets.Grants

open Base Base.Programs List Base.Checks
open Extract (InstallError sanitiseDisplay TreeNode)
open Install
open Manifest (Capability)

/-! ## Grants -/

def toolsetGrantDefaultTtlMs : ℕ := 30 * 24 * 60 * 60 * 1000

structure ToolsetGrant where
  grantId : String
  toolsetName : String
  capability : String
  destination : String
  asset : String
  amountMinStroops : ℤ
  amountMaxStroops : ℤ
  grantedAtUnixMs : ℕ
  expiresAtUnixMs : ℕ
  attestationBlobB64 : Option String
  processUidAtGrant : String

def ToolsetGrant.isExpired (g : ToolsetGrant) (nowUnixMs : ℕ) : Bool :=
  decide (g.expiresAtUnixMs ≤ nowUnixMs)

def ToolsetGrant.matches (g : ToolsetGrant) (toolsetName capability destination asset : String)
    (amountStroops : ℤ) (nowUnixMs : ℕ) : Bool :=
  if g.isExpired nowUnixMs then false
  else decide (g.toolsetName = toolsetName) && decide (g.capability = capability) &&
    decide (g.destination = destination) && decide (g.asset = asset) &&
    decide (amountStroops ≥ g.amountMinStroops) && decide (amountStroops ≤ g.amountMaxStroops)

/-- `ToolsetGrantStore::open` on the grants in the file. -/
def openGrants (stored : List ToolsetGrant) (nowUnixMs : ℕ) : List ToolsetGrant :=
  stored.filter fun g => !g.isExpired nowUnixMs

/-- The arguments of `record_first_invoke_grant`, with the identifier drawn for the grant and the
blob computed for it. -/
structure GrantRequest where
  profileName : String
  toolsetName : String
  capability : String
  destination : String
  asset : String
  amountMinStroops : ℤ
  amountMaxStroops : ℤ
  processUid : String
  grantId : String
  attestationBlobB64 : String

def buildAttestedGrant (req : GrantRequest) (nowUnixMs : ℕ) : ToolsetGrant where
  grantId := req.grantId
  toolsetName := req.toolsetName
  capability := req.capability
  destination := req.destination
  asset := req.asset
  amountMinStroops := req.amountMinStroops
  amountMaxStroops := req.amountMaxStroops
  grantedAtUnixMs := nowUnixMs
  expiresAtUnixMs := min (nowUnixMs + toolsetGrantDefaultTtlMs) (2 ^ 64 - 1)
  attestationBlobB64 := some req.attestationBlobB64
  processUidAtGrant := req.processUid

/-- How a write of the grant file ends: the directory is synced behind the rename, and a failure
there leaves the new file in place. -/
inductive Persist where
  | done
  | failed (detail : String)
  | failedAfterRename (detail : String)

/-- The file system as a call on the grants meets it; the text of a failure names the path or the
open it comes from. -/
structure GrantIo where
  openError : Option String
  persist : Persist

def Persist.result : Persist → Except String Unit
  | .done => .ok ()
  | .failed detail => .error detail
  | .failedAfterRename detail => .error detail

def Persist.file (p : Persist) (old new : List ToolsetGrant) : List ToolsetGrant :=
  match p with
  | .failed _ => old
  | _ => new

/-! ## The runtime -/

inductive RuntimeError where
  | unknownToolsetAction (action : String)
  | capabilityNotDeclared (action capability : String)
  | toolNotAllowed (tool action : String)
  | toolsetNotInstalled (name : String)
  | io (detail : String)
  | contentDigestMismatch (name : String)
  | grantStoreError (detail : String)
  | invalidAuthoritativeAmount (amountStroops : ℤ)
deriving DecidableEq

def recordFirstInvokeGrant (stored : List ToolsetGrant) (req : GrantRequest) (io : GrantIo)
    (nowUnixMs : ℕ) : Except RuntimeError ToolsetGrant × List ToolsetGrant :=
  let grant := buildAttestedGrant req nowUnixMs
  match io.openError with
  | some detail => (.error (.grantStoreError detail), stored)
  | none =>
    ((io.persist.result.mapError fun detail => .grantStoreError ("insert: " ++ detail)).map
        fun _ => grant,
      io.persist.file stored (openGrants stored nowUnixMs ++ [grant]))

/-- `revoke_toolset` on a store that has just been opened; the file is written only when a grant has
gone. -/
def revokeToolset (stored : List ToolsetGrant) (toolsetName : String) (io : GrantIo)
    (nowUnixMs : ℕ) : List ToolsetGrant :=
  let opened := openGrants stored nowUnixMs
  let kept := opened.filter fun g => decide (g.toolsetName ≠ toolsetName)
  match io.openError with
  | some _ => stored
  | none => if kept.length < opened.length then io.persist.file stored kept else stored

/-- `GATED_MATRIX_ENTRIES`, flattened. -/
def gatedMatrix : List (String × Capability) :=
  [("stellar_pay_commit", .signPayment), ("stellar_rule_create_commit", .signRuleCreate)]

def resolveGatedAction (action : String) : Except RuntimeError (String × Capability) :=
  okOr (gatedMatrix.find? fun entry => decide (entry.1 = action))
    (.unknownToolsetAction (sanitiseDisplay action 128))

def allowedByNarrowing (allowedTools : List String) (tool : String) : Prop :=
  allowedTools = [] ∨ tool ∈ allowedTools

instance (allowedTools : List String) (tool : String) :
    Decidable (allowedByNarrowing allowedTools tool) :=
  inferInstanceAs (Decidable (allowedTools = [] ∨ tool ∈ allowedTools))

def installErrorKindStr : InstallError → String
  | .io => "io_error"
  | .pinRecordMalformed _ => "pin_record_malformed"
  | _ => "install_error"

/-- `GatedInvokeParams`, with the answers of the file system and of the store of approvals: the
nonce of the queued entry, or the text of the failure. -/
structure GatedInvokeParams where
  toolsetName : String
  action : String
  profileName : String
  authoritativeDestination : String
  authoritativeAsset : String
  authoritativeAmountStroops : ℤ
  openError : Option String
  queued : Except String String

inductive GatedResolveOutcome where
  | resolved (toolName : String)
  | firstInvokeApprovalRequired (approvalNonce toolsetName capability : String)
deriving DecidableEq

/-- The toolsets, and the grants in the file of each profile. -/
structure Host where
  toolsets : World
  grants : String → List ToolsetGrant

def Host.empty : Host := ⟨World.empty, fun _ => []⟩

section

variable {V : Type} (env : Env V)

/-- The first-invoke gate: a grant that matches, or an approval that is queued. -/
def firstInvokeGate (stored : List ToolsetGrant) (nowUnixMs : ℕ) (params : GatedInvokeParams)
    (toolName capability : String) : Except RuntimeError GatedResolveOutcome :=
  match (openGrants stored nowUnixMs).find? fun g =>
    g.matches params.toolsetName capability params.authoritativeDestination
      params.authoritativeAsset params.authoritativeAmountStroops nowUnixMs with
  | some _ => .ok (.resolved toolName)
  | none =>
    (params.queued.mapError .io).map fun nonce =>
      .firstInvokeApprovalRequired nonce (sanitiseDisplay params.toolsetName 64)
        (sanitiseDisplay capability 64)

/-- `resolve_toolset_sign_payment_gated`; it does not read the digest of the manifest. -/
def resolveToolsetSignPaymentGated (host : Host) (nowUnixMs : ℕ) (params : GatedInvokeParams) :
    Except RuntimeError GatedResolveOutcome := do
  (validatePackageName env params.toolsetName).mapError fun _ =>
    .toolsetNotInstalled (sanitiseDisplay params.toolsetName 64)
  let pin ← (readPin env host.toolsets params.toolsetName).mapError fun e =>
    .io (installErrorKindStr e)
  let pin ← okOr pin (.toolsetNotInstalled (sanitiseDisplay params.toolsetName 64))
  let (toolName, grantingCapability) ← resolveGatedAction params.action
  refuseIf (grantingCapability ∉ pin.capabilities)
    (.capabilityNotDeclared (sanitiseDisplay params.action 128) grantingCapability.token)
  refuseIf (¬ allowedByNarrowing pin.allowedTools toolName)
    (.toolNotAllowed (sanitiseDisplay toolName 128) (sanitiseDisplay params.action 128))
  refuseIf (params.authoritativeAmountStroops ≤ 0)
    (.invalidAuthoritativeAmount params.authoritativeAmountStroops)
  refuseIf (params.openError.isSome = true) (.grantStoreError (params.openError.getD ""))
  firstInvokeGate (host.grants params.profileName) nowUnixMs params toolName
    grantingCapability.token

/-! ## Histories -/

inductive Action where
  | toolsets (e : Install.Event)
  | record (req : GrantRequest) (io : GrantIo)
  | revoke (profileName toolsetName : String) (io : GrantIo)
  | invoke (params : GatedInvokeParams)

structure Event where
  now : ℕ
  action : Action

def Host.withGrants (host : Host) (profileName : String) (grants : List ToolsetGrant) : Host :=
  { host with grants := Function.update host.grants profileName grants }

def step (host : Host) (e : Event) : Host :=
  match e.action with
  | .toolsets a => { host with toolsets := Install.step env host.toolsets a }
  | .record req io => host.withGrants req.profileName
      (recordFirstInvokeGrant (host.grants req.profileName) req io e.now).2
  | .revoke profileName toolsetName io => host.withGrants profileName
      (revokeToolset (host.grants profileName) toolsetName io e.now)
  | .invoke _ => host

/-- The install or the uninstall of the package has succeeded. -/
def Succeeds (w : World) (package : String) : Install.Event → Prop
  | .install call => call.package = package ∧
      ∃ outcome, (exec (installToolset env call) w).1 = .ok outcome
  | .uninstall fault q => q = package ∧ (exec (uninstallToolset env fault q) w).1 = .ok ()

/-- The installation of the package is another one behind the event: an install or an uninstall of
it has succeeded, or its pin has changed in any other way. -/
def Renews (w : World) (package : String) : Action → Prop
  | .toolsets a => Succeeds env w package a ∨
      pinNode (Install.step env w a) package ≠ pinNode w package
  | _ => False

/-- The event puts a grant into the file of a profile. -/
def Records (profileName : String) (grant : ToolsetGrant) (e : Event) : Prop :=
  ∃ req io, e.action = .record req io ∧ req.profileName = profileName ∧
    grant = buildAttestedGrant req e.now

/-- The grant was recorded in this history, in a host with the property, and the installation of its
toolset has been the same since. -/
def GrantedIn (P : Host → Prop) (events : List Event) (profileName : String)
    (grant : ToolsetGrant) : Prop :=
  ∃ pre e post, events = pre ++ e :: post ∧ Records profileName grant e ∧
    P (Runs.run (step env) Host.empty (pre ++ [e])) ∧
    Runs.Along (step env) (fun host x => ¬ Renews env host.toolsets grant.toolsetName x.action)
      (Runs.run (step env) Host.empty (pre ++ [e])) post

/-- No unexpired grant for a package is left when its installation changes. -/
def Revoked (host : Host) (e : Event) : Prop :=
  ∀ package, Renews env host.toolsets package e.action →
    ∀ profileName, ∀ g ∈ host.grants profileName, g.toolsetName = package →
      g.isExpired e.now = true

end

/-! ## Where the grants come from -/

section

variable {V : Type} {env : Env V} {host : Host} {events : List Event} {e : Event}
  {profileName : String} {g : ToolsetGrant} {now : ℕ} {stored : List ToolsetGrant}

theorem mem_of_mem_openGrants (h : g ∈ openGrants stored now) : g ∈ stored :=
  mem_of_mem_filter h

theorem mem_persist_file {p : Persist} {old new : List ToolsetGrant} (h : g ∈ p.file old new) :
    g ∈ old ∨ g ∈ new := by
  cases p with
  | failed detail => exact .inl h
  | done => exact .inr h
  | failedAfterRename detail => exact .inr h

variable {io : GrantIo}

theorem mem_recordFirstInvokeGrant {req : GrantRequest}
    (h : g ∈ (recordFirstInvokeGrant stored req io now).2) :
    g ∈ stored ∨ g = buildAttestedGrant req now := by
  unfold recordFirstInvokeGrant at h
  rcases hopen : io.openError with _ | detail <;> rw [hopen] at h
  · rcases mem_persist_file h with h | h
    · exact .inl h
    · rcases mem_append.mp h with h | h
      · exact .inl (mem_of_mem_openGrants h)
      · exact .inr (mem_singleton.mp h)
  · exact .inl h

variable {toolsetName : String}

theorem mem_revokeToolset (h : g ∈ revokeToolset stored toolsetName io now) : g ∈ stored := by
  unfold revokeToolset at h
  rcases hopen : io.openError with _ | detail <;> rw [hopen] at h
  · dsimp only at h
    split_ifs at h
    · rcases mem_persist_file h with h | h
      · exact h
      · exact mem_of_mem_openGrants (mem_of_mem_filter h)
    · exact h
  · exact h

theorem mem_step_grants (h : g ∈ (step env host e).grants profileName) :
    g ∈ host.grants profileName ∨ Records profileName g e := by
  unfold step at h
  rcases haction : e.action with a | ⟨req, io⟩ | ⟨q, toolsetName, io⟩ | params <;>
    rw [haction] at h
  · exact .inl h
  · by_cases hq : profileName = req.profileName
    · subst hq
      have hmem : g ∈ (recordFirstInvokeGrant (host.grants req.profileName) req io e.now).2 := by
        simpa [Host.withGrants] using h
      rcases mem_recordFirstInvokeGrant hmem with hg | hg
      · exact .inl hg
      · exact .inr ⟨req, io, haction, rfl, hg⟩
    · exact .inl (by simpa [Host.withGrants, hq] using h)
  · by_cases hq : profileName = q
    · subst hq
      exact .inl (mem_revokeToolset (by simpa [Host.withGrants] using h))
    · exact .inl (by simpa [Host.withGrants, hq] using h)
  · exact .inl h

theorem isExpired_mono {later : ℕ} (hle : now ≤ later) (h : g.isExpired now = true) :
    g.isExpired later = true := by
  simp only [ToolsetGrant.isExpired, decide_eq_true_eq] at h ⊢
  omega

theorem GrantedIn.concat {P : Host → Prop} (h : GrantedIn env P events profileName g)
    (hsame : ¬ Renews env (Runs.run (step env) Host.empty events).toolsets g.toolsetName e.action) :
    GrantedIn env P (events ++ [e]) profileName g := by
  obtain ⟨pre, r, post, rfl, hrecords, hhost, halong⟩ := h
  refine ⟨pre, r, post ++ [e], by simp, hrecords, hhost, halong.concat ?_⟩
  rw [← Runs.run_append]
  simpa using hsame

/-- **Every unexpired grant is one for the installation that is there.** -/
theorem grantedIn_of_mem (hrevoked : Runs.Along (step env) (Revoked env) Host.empty events)
    (hclock : ∀ x ∈ events, x.now ≤ now)
    (hmem : g ∈ (Runs.run (step env) Host.empty events).grants profileName)
    (hexpired : g.isExpired now = false) :
    GrantedIn env (fun _ => True) events profileName g := by
  induction events using List.reverseRecOn with
  | nil => cases hmem
  | append_singleton events e ih =>
    rw [Runs.run_append] at hmem
    rcases mem_step_grants hmem with hold | hnew
    · have hgranted : GrantedIn env (fun _ => True) events profileName g :=
        ih hrevoked.left (fun x hx => hclock x (mem_append_left _ hx)) hold
      refine hgranted.concat fun hrenews => ?_
      -- the grant was unexpired when the installation changed
      have hnow : e.now ≤ now := hclock e (by simp)
      have hgone := hrevoked.right.1 _ hrenews profileName g hold rfl
      rw [isExpired_mono hnow hgone] at hexpired
      cases hexpired
    · exact ⟨events, e, [], rfl, hnew, trivial, trivial⟩

/-! ## Invocations -/

variable {package capability toolName : String} {params : GatedInvokeParams} {pin : PinRecord}

theorem matches_eq_true {destination asset : String} {amount : ℤ}
    (h : g.matches toolsetName capability destination asset amount now = true) :
    g.isExpired now = false ∧ g.toolsetName = toolsetName ∧ g.capability = capability ∧
      g.destination = destination ∧ g.asset = asset ∧ g.amountMinStroops ≤ amount ∧
      amount ≤ g.amountMaxStroops := by
  unfold ToolsetGrant.matches at h
  split_ifs at h with hexpired
  simp only [Bool.and_eq_true, decide_eq_true_eq] at h
  obtain ⟨⟨⟨⟨⟨hname, hcapability⟩, hdestination⟩, hasset⟩, hmin⟩, hmax⟩ := h
  exact ⟨by simpa using hexpired, hname, hcapability, hdestination, hasset, hmin, hmax⟩

/-- What stands behind an invocation that is resolved. -/
structure ResolvedBy (env : Env V) (host : Host) (now : ℕ) (params : GatedInvokeParams)
    (toolName : String) (pin : PinRecord) (capability : Capability)
      (grant : ToolsetGrant) : Prop where
  pin_read : readPin env host.toolsets params.toolsetName = .ok (some pin)
  action : resolveGatedAction params.action = .ok (toolName, capability)
  declared : capability ∈ pin.capabilities
  allowed : allowedByNarrowing pin.allowedTools toolName
  stored : grant ∈ host.grants params.profileName
  unexpired : grant.isExpired now = false
  toolset : grant.toolsetName = params.toolsetName
  same_capability : grant.capability = capability.token
  same_destination : grant.destination = params.authoritativeDestination
  same_asset : grant.asset = params.authoritativeAsset
  in_range : grant.amountMinStroops ≤ params.authoritativeAmountStroops ∧
    params.authoritativeAmountStroops ≤ grant.amountMaxStroops

theorem firstInvokeGate_eq_resolved {tool : String}
    (h : firstInvokeGate stored now params tool capability = .ok (.resolved toolName)) :
    tool = toolName ∧ ∃ g ∈ stored, g.matches params.toolsetName capability
      params.authoritativeDestination params.authoritativeAsset params.authoritativeAmountStroops
      now = true := by
  unfold firstInvokeGate at h
  rcases hfind : (openGrants stored now).find? fun g =>
      g.matches params.toolsetName capability params.authoritativeDestination
        params.authoritativeAsset params.authoritativeAmountStroops now with _ | g <;>
    rw [hfind] at h
  · rcases hqueued : params.queued with detail | nonce <;> rw [hqueued] at h <;> cases h
  · obtain rfl := GatedResolveOutcome.resolved.inj (Except.ok.inj h)
    have hmatches := List.find?_some hfind
    exact ⟨rfl, g, mem_of_mem_openGrants (mem_of_find?_eq_some hfind), hmatches⟩

theorem resolvedBy_of_resolved
    (h : resolveToolsetSignPaymentGated env host now params = .ok (.resolved toolName)) :
    ∃ pin capability grant, ResolvedBy env host now params toolName pin capability grant := by
  simp only [resolveToolsetSignPaymentGated, bind_eq_ok_iff, refuseIf_eq_ok_iff,
    okOr_eq_ok_iff, mapError_eq_ok_iff, not_not] at h
  obtain ⟨-, -, _, hread, pin, rfl, ⟨tool, capability⟩, haction, -, hdeclared, -, hallowed, -, -,
    -, -, hgate⟩ := h
  obtain ⟨rfl, g, hstored, hmatches⟩ := firstInvokeGate_eq_resolved hgate
  obtain ⟨hexpired, hname, hcapability, hdestination, hasset, hmin, hmax⟩ := matches_eq_true hmatches
  exact ⟨pin, capability, g, hread, haction, hdeclared, hallowed, hstored, hexpired, hname,
    hcapability, hdestination, hasset, hmin, hmax⟩

/-! ## The installation a grant was recorded for -/

theorem pinNode_step (h : ¬ Renews env host.toolsets package e.action) :
    pinNode (step env host e).toolsets package = pinNode host.toolsets package := by
  unfold step
  rcases haction : e.action with a | ⟨req, io⟩ | ⟨q, toolsetName, io⟩ | params
  · rw [haction] at h
    by_contra hne
    exact h (.inr hne)
  all_goals rfl

theorem pinNode_run : ∀ {events : List Event} {host : Host},
    Runs.Along (step env) (fun host x => ¬ Renews env host.toolsets package x.action) host events →
      pinNode (Runs.run (step env) host events).toolsets package = pinNode host.toolsets package
  | [], _, _ => rfl
  | _ :: _, _, h => (pinNode_run h.2).trans (pinNode_step h.1)

/-- The grant was recorded for the installation with this pin, and that is the one still there. -/
def GrantedFor (env : Env V) (events : List Event) (profileName : String) (grant : ToolsetGrant)
    (pin : PinRecord) : Prop :=
  GrantedIn env (fun host => readPin env host.toolsets grant.toolsetName = .ok (some pin)) events
    profileName grant

theorem GrantedIn.grantedFor (h : GrantedIn env (fun _ => True) events profileName g)
    (hpin : readPin env (Runs.run (step env) Host.empty events).toolsets g.toolsetName =
      .ok (some pin)) : GrantedFor env events profileName g pin := by
  obtain ⟨pre, e, post, rfl, hrecords, -, halong⟩ := h
  refine ⟨pre, e, post, rfl, hrecords, ?_, halong⟩
  have hrun : Runs.run (step env) Host.empty (pre ++ e :: post) =
      Runs.run (step env) (Runs.run (step env) Host.empty (pre ++ [e])) post := by
    rw [← Runs.run_append]
    simp
  rw [hrun] at hpin
  rwa [readPin_congr (pinNode_run halong)] at hpin

theorem GrantedFor.recorded_after {pre post : List Event} {x : Event}
    (h : GrantedFor env (pre ++ x :: post) profileName g pin)
    (hrenews : Renews env (Runs.run (step env) Host.empty pre).toolsets g.toolsetName x.action) :
    ∃ e ∈ post, Records profileName g e := by
  obtain ⟨pre', e, post', heq, hrecords, -, halong⟩ := h
  rcases append_eq_append_iff.mp heq with ⟨mid, rfl, htail⟩ | ⟨mid, rfl, htail⟩
  · rcases mid with _ | ⟨y, mid⟩
    · -- the change itself records nothing
      obtain ⟨rfl, -⟩ := List.cons.inj htail
      obtain ⟨req, io, haction, -, -⟩ := hrecords
      rw [haction] at hrenews
      exact absurd hrenews not_false
    · obtain ⟨rfl, rfl⟩ := List.cons.inj htail
      exact ⟨e, by simp, hrecords⟩
  · rcases mid with _ | ⟨y, mid⟩
    · obtain ⟨rfl, -⟩ := List.cons.inj htail
      obtain ⟨req, io, haction, -, -⟩ := hrecords
      rw [haction] at hrenews
      exact absurd hrenews not_false
    · -- the grant is older: the change stands among the events that change nothing
      obtain ⟨rfl, rfl⟩ := List.cons.inj htail
      have hhere := halong.right.1
      rw [← Runs.run_append] at hhere
      exact absurd hrenews (by simpa using hhere)

/-- **A grant is good for the installation it was approved for**: along every history in which no
unexpired grant of a package is left when its installation changes, an invocation is resolved only
by an unexpired grant that was recorded for the installation it finds, with the same capability,
destination and asset and the amount in its range; and behind a change of the installation the gate
fires until a grant is recorded anew. -/
theorem resolved_has_fresh_grant (env : Env V) (events : List Event) (now : ℕ)
    (params : GatedInvokeParams) (hclock : (events.map Event.now ++ [now]).Pairwise (· ≤ ·))
    (hrevoked : Runs.Along (step env) (Revoked env) Host.empty events) :
    (∀ toolName, resolveToolsetSignPaymentGated env (Runs.run (step env) Host.empty events) now
        params = .ok (.resolved toolName) →
      ∃ pin capability grant, ResolvedBy env (Runs.run (step env) Host.empty events) now params
        toolName pin capability grant ∧ GrantedFor env events params.profileName grant pin) ∧
    ∀ pre x post, events = pre ++ x :: post →
      Renews env (Runs.run (step env) Host.empty pre).toolsets params.toolsetName x.action →
      (∀ e ∈ post, ∀ grant, Records params.profileName grant e →
        grant.toolsetName ≠ params.toolsetName) →
      ∀ toolName, resolveToolsetSignPaymentGated env (Runs.run (step env) Host.empty events) now
        params ≠ .ok (.resolved toolName) := by
  have hnow : ∀ x ∈ events, x.now ≤ now := by
    intro x hx
    exact (pairwise_append.mp hclock).2.2 _ (mem_map_of_mem hx) now (by simp)
  have hfresh : ∀ toolName, resolveToolsetSignPaymentGated env
      (Runs.run (step env) Host.empty events) now params = .ok (.resolved toolName) →
      ∃ pin capability grant, ResolvedBy env (Runs.run (step env) Host.empty events) now params
        toolName pin capability grant ∧ GrantedFor env events params.profileName grant pin := by
    intro toolName h
    obtain ⟨pin, capability, grant, hby⟩ := resolvedBy_of_resolved h
    have hin := grantedIn_of_mem hrevoked hnow hby.stored hby.unexpired
    exact ⟨pin, capability, grant, hby, hin.grantedFor (hby.toolset ▸ hby.pin_read)⟩
  refine ⟨hfresh, ?_⟩
  rintro pre x post rfl hrenews hnone toolName h
  obtain ⟨pin, capability, grant, hby, hfor⟩ := hfresh toolName h
  obtain ⟨e, he, hrecords⟩ := hfor.recorded_after (hby.toolset ▸ hrenews)
  exact hnone e he grant hrecords hby.toolset

end

/-! ## A grant that outlives its installation -/

section

/-- `name: p`, `description: d`, `metadata: {stellar-agent-capabilities: sign-payment}` -/
def signerDoc : Yaml.Node :=
  .mapping 0 (.cons (.scalar "name" 0) (.scalar "p" 0)
    (.cons (.scalar "description" 0) (.scalar "d" 0)
      (.cons (.scalar "metadata" 0) (.mapping 0
        (.cons (.scalar Manifest.capabilityKey 0) (.scalar "sign-payment" 0) .nil)) .nil)))

def signerArchive : Extract.Archive where
  entries :=
    [some ⟨.regular, Utf8.encode "p/TOOLSET.md".toList, some (Utf8.encode "---\n---\n".toList)⟩]
  trailingData := some false

def signerEnv : Env ℕ :=
  { plantedEnv with
    unpack := fun _ => signerArchive
    tokens := fun _ => (Yaml.streamEvents [signerDoc]).map .ok
    strkey := fun key => if key = [97] then "GA" else "GB"
    parseStrkey := fun line => some (line.map fun c => UInt8.ofNat c.toNat) }

/-- An install by a publisher; the operator waives the attestation. -/
def signerCall (publisher : Extract.Bytes) : InstallCall :=
  { plantedCall .none with
    publisherPubkey := publisher
    trustFile := .content [97, 10, 98]
    options := ⟨false, false, true⟩ }

def payRequest : GrantRequest where
  profileName := "alice"
  toolsetName := "p"
  capability := "sign-payment"
  destination := "GD"
  asset := "XLM"
  amountMinStroops := 0
  amountMaxStroops := 10
  processUid := "1000"
  grantId := "g"
  attestationBlobB64 := "b"

def payParams : GatedInvokeParams where
  toolsetName := "p"
  action := "stellar_pay_commit"
  profileName := "alice"
  authoritativeDestination := "GD"
  authoritativeAsset := "XLM"
  authoritativeAmountStroops := 7
  openError := none
  queued := .ok "n"

def approvedHistory : List Event :=
  [⟨0, .toolsets (.install (signerCall [97]))⟩, ⟨1, .record payRequest ⟨none, .done⟩⟩]

/-- Then the toolset goes. -/
def uninstalledHistory : List Event :=
  approvedHistory ++ [⟨2, .toolsets (.uninstall (fun _ => .none) "p")⟩]

/-- One of another publisher comes under its name. -/
def replacedHistory : List Event :=
  uninstalledHistory ++ [⟨3, .toolsets (.install (signerCall [98]))⟩]

/-- **The grant outlives the installation**: it was recorded for the toolset of one publisher, and
resolves an invocation of the toolset that another publisher has put under the name since. -/
theorem grant_outlives_uninstall :
    resolveToolsetSignPaymentGated signerEnv (Runs.run (step signerEnv) Host.empty replacedHistory) 4
        payParams = .ok (.resolved "stellar_pay_commit") ∧
      (replacedHistory.map Event.now ++ [4]).Pairwise (· ≤ ·) ∧
      ∀ grant pin, grant.toolsetName = payParams.toolsetName →
        ¬ GrantedFor signerEnv replacedHistory payParams.profileName grant pin := by
  refine ⟨by decide +kernel, by decide +kernel, fun grant pin hname hfor => ?_⟩
  have hinstalled : (exec (installToolset signerEnv (signerCall [98]))
      (Runs.run (step signerEnv) Host.empty uninstalledHistory).toolsets).1 = .ok .overridden := by
    decide +kernel
  have hrenews : Renews signerEnv (Runs.run (step signerEnv) Host.empty uninstalledHistory).toolsets
      grant.toolsetName (.toolsets (.install (signerCall [98]))) := by
    rw [hname]
    exact .inl ⟨rfl, .overridden, hinstalled⟩
  have hfor : GrantedFor signerEnv
      (uninstalledHistory ++ ⟨3, .toolsets (.install (signerCall [98]))⟩ :: [])
      payParams.profileName grant pin := hfor
  obtain ⟨e, he, -⟩ := hfor.recorded_after hrenews
  cases he

/-- A grant that is used for the installation it was recorded for. -/
theorem grant_used :
    resolveToolsetSignPaymentGated signerEnv (Runs.run (step signerEnv) Host.empty approvedHistory) 2
        payParams = .ok (.resolved "stellar_pay_commit") ∧ ∃ pin capability grant,
        ResolvedBy signerEnv (Runs.run (step signerEnv) Host.empty approvedHistory) 2 payParams
          "stellar_pay_commit" pin capability grant ∧
        GrantedFor signerEnv approvedHistory payParams.profileName grant pin := by
  have hresolved : resolveToolsetSignPaymentGated signerEnv
      (Runs.run (step signerEnv) Host.empty approvedHistory) 2 payParams =
        .ok (.resolved "stellar_pay_commit") := by
    decide +kernel
  refine ⟨hresolved, ?_⟩
  refine (resolved_has_fresh_grant signerEnv approvedHistory 2 payParams (by decide) ?_).1 _ hresolved
  refine ⟨fun package _ profileName g hg _ => ?_, fun package hrenews => ?_, trivial⟩
  · cases hg
  · exact absurd hrenews not_false

end

end AgentWallet.Toolsets.Grants
