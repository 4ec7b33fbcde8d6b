import AgentWallet.Toolsets.Install

/-!
# Installs that are refused

A call of `install_toolset` that returns an error, with its own roll-back going through.  Behind the
removal of an older version nothing changes that was installed (`restOfInstall_error`).  But that
removal comes before the archive is unpacked, parsed and attested: with `force`, every refusal
behind it leaves the package without the version it had (`forced_reinstall_loses_version`).
`refused_install_unchanged_iff` says exactly when a refused call changes nothing.
-/

namespace AgentWallet.Toolsets.Refusal

open Base.Programs Base.Checks
open Extract Install

section

variable {V : Type} (env : Env V)

/-- `read_pin` returns a record for the package. -/
def Installed (w : World) (package : String) : Prop :=
  ∃ pin, readPin env w package = .ok (some pin)

/-- Every installed package has its directory with the pin in it as before, and no other is
installed. -/
structure Unchanged (w w' : World) : Prop where
  kept : ∀ q, Installed env w q → w' q = w q
  noNew : ∀ q, Installed env w' q → Installed env w q

/-- The checks of the replacement of the version with this pin go through. -/
def Passes (call : InstallCall) (pin : PinRecord) (parsed : V) : Prop :=
  call.options.force = true ∧ (call.options.allowDowngrade = true ∨
    checkNotDowngrade env call.version pin.version parsed = .ok ()) ∧ call.fault .reread = .none

/-- The call goes on to remove the version with this pin. -/
structure Replaces (call : InstallCall) (w : World) (pin : PinRecord) : Prop where
  checked : ∃ parsed, verifyCall env call = .ok parsed ∧ Passes env call pin parsed
  installed : readPin env w call.package = .ok (some pin)
  createRoot : call.fault .createRoot = .none
  readPin : call.fault .readPin = .none

/-- A removal that takes something of the directory. -/
def Removes (tree : Option Tree) : Fault → Prop
  | .none => True
  | .fail kept | .crash kept => ∃ t, tree = some t ∧ ∃ x ∈ t, kept x.1 = false

/-- The removal takes the pin of the package, or something of the package the pin names. -/
def Takes (call : InstallCall) (w : World) (pin : PinRecord) : Prop :=
  call.fault .statOld = .none ∧
    ((w pin.package = none ∨ call.fault .removeOld = .none) ∧ call.fault .removePin = .none ∨
      Installed env w pin.package ∧ Removes (w pin.package) (call.fault .removeOld))

/-- What follows the removal of an older version. -/
def restOfInstall (call : InstallCall) : Action AttestationOutcome := do
  touch (call.fault .stage)
  let staged ← check (stagePackage env call)
  moveIntoPlace call staged
  pinOrRollBack env call staged
  return staged.outcome

end

section

variable {V : Type} {env : Env V} {w w' : World} {call : InstallCall} {e : InstallError}

/-! ## How a step ends -/

variable {fault : Fault} {q package : String} {w₁ : World} {α : Type} {x : Except InstallError α}
  {staged : Staged} {effect : World → World} {partly : (Path → Bool) → World → World}

theorem exec_durable_eq_ok_iff :
    exec (durable fault effect partly) w = (.ok (), w') ↔ fault = .none ∧ w' = effect w := by
  rcases fault with _ | kept | kept
  · simp [durable, exec_modify, eq_comm]
  · have hfail : exec (durable (.fail kept) effect partly) w =
      (.error (.failed .io), partly kept w) :=
      rfl
    simp [hfail]
  · have hcrash : exec (durable (.crash kept) effect partly) w = (.error .crashed, partly kept w) :=
      rfl
    simp [hcrash]

theorem exec_durable_eq_failed_iff :
    exec (durable fault effect partly) w = (.error (.failed e), w') ↔
      e = .io ∧ ∃ kept, fault = .fail kept ∧ w' = partly kept w := by
  rcases fault with _ | kept | kept
  · simp [durable, exec_modify]
  · have hfail : exec (durable (.fail kept) effect partly) w =
      (.error (.failed .io), partly kept w) :=
      rfl
    simp [hfail, eq_comm]
  · have hcrash : exec (durable (.crash kept) effect partly) w = (.error .crashed, partly kept w) :=
      rfl
    simp [hcrash]

theorem exec_touch_eq_ok (h : exec (touch fault) w = (.ok (), w')) : fault = .none ∧ w = w' := by
  obtain ⟨hfault, hw⟩ := exec_durable_eq_ok_iff.mp h
  exact ⟨hfault, hw.symm⟩

theorem exec_touch_eq_failed (h : exec (touch fault) w = (.error (.failed e), w')) :
    fault ≠ .none ∧ w = w' := by
  obtain ⟨-, kept, hfault, hw⟩ := exec_durable_eq_failed_iff.mp h
  exact ⟨by simp [hfault], hw.symm⟩

theorem exec_check_eq_ok_iff {a : α} : exec (check x) w = (.ok a, w') ↔ x = .ok a ∧ w = w' := by
  rw [check, exec_lift, Prod.mk.injEq, mapError_eq_ok_iff]

theorem exec_check_eq_failed (h : exec (check x) w = (.error (.failed e), w')) :
    x = .error e ∧ w = w' := by
  rw [check, exec_lift, Prod.mk.injEq] at h
  rcases x with e' | a
  · exact ⟨by simpa [Except.mapError] using h.1, h.2⟩
  · cases h.1

/-! ## Installed packages -/

theorem Installed.pinNode (h : Installed env w q) : ∃ bytes, pinNode w q = some (.file bytes) := by
  obtain ⟨pin, hpin⟩ := h
  obtain ⟨-, -, bytes, -, hnode, -, -⟩ := readPin_eq_ok_iff.mp hpin
  exact ⟨bytes, hnode⟩

theorem not_installed_of_pinNode (h : pinNode w q = none) : ¬ Installed env w q := by
  intro hq
  obtain ⟨bytes, hbytes⟩ := hq.pinNode
  rw [h] at hbytes
  cases hbytes

theorem pinNode_of_readPin (h : readPin env w q = .ok none) : pinNode w q = none := by
  obtain ⟨⟨⟩, -, hdecode⟩ := bind_eq_ok_iff.mp h
  rcases hnode : pinNode w q with _ | bytes | _ <;> rw [hnode] at hdecode
  · simp [decodePin, bind_eq_ok_iff] at hdecode
  · cases hdecode

theorem Unchanged.refl : Unchanged env w w := ⟨fun _ _ => rfl, fun _ h => h⟩

theorem unchanged_of_one (hothers : ∀ q, q ≠ package → w' q = w q)
    (hbefore : ¬ Installed env w package) (hafter : ¬ Installed env w' package) :
    Unchanged env w w' := by
  refine ⟨fun q hq => hothers q ?_, fun q hq => ?_⟩
  · rintro rfl
    exact hbefore hq
  · have hne : q ≠ package := by
      rintro rfl
      exact hafter hq
    obtain ⟨pin, hpin⟩ := hq
    exact ⟨pin, (readPin_congr (by rw [pinNode, pinNode, hothers q hne])).trans hpin⟩

theorem not_unchanged_of_pinNode (hbefore : Installed env w package)
    (hafter : pinNode w' package = none) : ¬ Unchanged env w w' := by
  intro h
  obtain ⟨bytes, hbytes⟩ := hbefore.pinNode
  have heq := h.kept package hbefore
  rw [pinNode, heq, ← Install.pinNode, hbytes] at hafter
  cases hafter

theorem Shrinks.not_installed (h : Shrinks w w') (hbefore : ¬ Installed env w package) :
    ¬ Installed env w' package := by
  rintro ⟨pin, hpin⟩
  obtain ⟨hname, hrecord, bytes, content, hnode, hcontent, hjson⟩ := readPin_eq_ok_iff.mp hpin
  exact hbefore ⟨pin, readPin_eq_ok_iff.mpr
    ⟨hname, hrecord, bytes, content, h package _ hnode, hcontent, hjson⟩⟩

/-! ## Behind the removal -/

/-- Only the package has changed, and it has no pin. -/
structure Beside (package : String) (w w' : World) : Prop where
  others : ∀ q, q ≠ package → w' q = w q
  noPin : pinNode w' package = none

theorem Beside.update (h : Beside package w w') (tree : Option Tree)
    (htree : (tree.bind fun t => t.lookup pinPath) = none) :
    Beside package w (Function.update w' package tree) := by
  refine ⟨fun q hq => ?_, ?_⟩
  · rw [Function.update_of_ne hq]
    exact h.others q hq
  · rw [pinNode_update, if_pos rfl]
    exact htree

theorem Beside.filter (h : Beside package w w') (kept : Path → Bool) :
    Beside package w (Function.update w' package
      ((w' package).map fun tree => tree.filter fun x => kept x.1)) := by
  refine h.update _ ?_
  by_contra hpin
  obtain ⟨node, hnode⟩ := Option.ne_none_iff_exists'.mp hpin
  have hshrinks := shrinks_filter w' package kept package node (by simpa [pinNode] using hnode)
  rw [h.noPin] at hshrinks
  cases hshrinks

section

variable (hw : Beside call.package w w')
include hw

theorem clearFinal_ok (h : exec (clearFinal call) w' = (.ok (), w₁)) :
    Beside call.package w w₁ := by
  obtain ⟨_, _, hget, h⟩ := exec_bind_eq_ok_iff.mp h
  obtain ⟨rfl, rfl⟩ : w' = _ ∧ w' = _ := by simpa [exec_get] using hget
  split_ifs at h with hnone
  · obtain rfl : w' = w₁ := (Prod.mk.inj h).2
    exact hw
  · obtain ⟨-, rfl⟩ := exec_durable_eq_ok_iff.mp h
    exact hw.update none rfl

theorem moveIntoPlace_failed (h : exec (moveIntoPlace call staged) w' = (.error (.failed e), w₁)) :
    Beside call.package w w₁ := by
  rcases exec_bind_eq_error_iff.mp h with hclear | ⟨⟨⟩, w₂, hclear, hrename⟩
  · rcases exec_bind_eq_error_iff.mp hclear with hget | ⟨_, _, hget, hremove⟩
    · cases hget
    obtain ⟨rfl, rfl⟩ : w' = _ ∧ w' = _ := by simpa [exec_get] using hget
    split_ifs at hremove with hnone
    · cases hremove
    · obtain ⟨-, kept, -, rfl⟩ := exec_durable_eq_failed_iff.mp hremove
      exact hw.filter kept
  · obtain ⟨-, _, -, rfl⟩ := exec_durable_eq_failed_iff.mp hrename
    exact clearFinal_ok hw hclear

theorem moveIntoPlace_ok (h : exec (moveIntoPlace call staged) w' = (.ok (), w₁)) :
    ∀ q, q ≠ call.package → w₁ q = w q := by
  obtain ⟨⟨⟩, w₂, hclear, hrename⟩ := exec_bind_eq_ok_iff.mp h
  obtain ⟨-, rfl⟩ := exec_durable_eq_ok_iff.mp hrename
  intro q hq
  rw [Function.update_of_ne hq]
  exact (clearFinal_ok hw hclear).others q hq

end

theorem writePinAtomic_failed {record : PinRecord}
    (h : exec (writePinAtomic env fault record) w' = (.error (.failed e), w₁)) : w₁ = w' := by
  rcases exec_bind_eq_error_iff.mp h with hget | ⟨_, _, hget, hwrite⟩
  · cases hget
  obtain ⟨rfl, rfl⟩ : w' = _ ∧ w' = _ := by simpa [exec_get] using hget
  rcases exec_bind_eq_error_iff.mp hwrite with hcheck | ⟨⟨⟩, w₂, hcheck, hrename⟩
  · exact (exec_check_eq_failed hcheck).2.symm
  · obtain ⟨-, rfl⟩ := exec_check_eq_ok_iff.mp hcheck
    obtain ⟨-, _, -, rfl⟩ := exec_durable_eq_failed_iff.mp hrename
    rfl

theorem pinOrRollBack_failed (hroll : call.fault .rollback = .none)
    (hw : ∀ q, q ≠ call.package → w' q = w q)
    (h : exec (pinOrRollBack env call staged) w' = (.error (.failed e), w₁)) :
    Beside call.package w w₁ := by
  rw [pinOrRollBack, exec_tryCatch] at h
  rcases hwrite : exec (writePinAtomic env (call.fault .writePin) (pinRecord env call staged)) w' with
    ⟨(e' | _) | ⟨⟩, w₂⟩
  · rw [hwrite] at h
    obtain rfl := writePinAtomic_failed hwrite
    have hclean : exec (bestEffort (removeDirAll (call.fault .rollback) call.package)) w₂ =
        (.ok (), Function.update w₂ call.package none) := by
      rw [hroll]
      rfl
    have h := (exec_bind_ok hclean).symm.trans h
    obtain rfl : Function.update w₂ call.package none = w₁ := (Prod.mk.inj h).2
    refine ⟨fun q hq => ?_, by simp [pinNode_update]⟩
    rw [Function.update_of_ne hq]
    exact hw q hq
  · rw [hwrite] at h
    cases h
  · rw [hwrite] at h
    cases h

/-- **Behind the removal a refusal takes nothing**: what is left of a package without a pin may go,
everything else stays. -/
theorem restOfInstall_failed (hroll : call.fault .rollback = .none)
    (hpin : pinNode w call.package = none)
    (h : exec (restOfInstall env call) w = (.error (.failed e), w')) :
    Beside call.package w w' := by
  have hstart : Beside call.package w w := ⟨fun _ _ => rfl, hpin⟩
  rcases exec_bind_eq_error_iff.mp h with htouch | ⟨⟨⟩, w₁, htouch, hstage⟩
  · obtain ⟨-, rfl⟩ := exec_touch_eq_failed htouch
    exact hstart
  obtain ⟨-, rfl⟩ := exec_touch_eq_ok htouch
  rcases exec_bind_eq_error_iff.mp hstage with hcheck | ⟨staged, w₂, hcheck, hmove⟩
  · obtain ⟨-, rfl⟩ := exec_check_eq_failed hcheck
    exact hstart
  obtain ⟨-, rfl⟩ := exec_check_eq_ok_iff.mp hcheck
  rcases exec_bind_eq_error_iff.mp hmove with hmove | ⟨⟨⟩, w₃, hmove, hpinned⟩
  · exact moveIntoPlace_failed hstart hmove
  have hmoved := moveIntoPlace_ok hstart hmove
  rcases exec_bind_eq_error_iff.mp hpinned with hwrite | ⟨⟨⟩, w₄, -, hreturn⟩
  · exact pinOrRollBack_failed hroll hmoved hwrite
  · cases hreturn

/-! ## The removal -/

variable {pin : PinRecord}

theorem filter_eq_self_iff {tree : Tree} {kept : Path → Bool} :
    (tree.filter fun x => kept x.1) = tree ↔ ¬ ∃ x ∈ tree, kept x.1 = false := by
  simp [List.filter_eq_self]

theorem unchanged_remove_iff (hthere : w q ≠ none)
    (hw' : fault = .none ∧ w' = Function.update w q none ∨ ∃ kept, fault = .fail kept ∧
      w' = Function.update w q ((w q).map fun tree => tree.filter fun x => kept x.1)) :
    Unchanged env w w' ↔ ¬ (Installed env w q ∧ Removes (w q) fault) := by
  have hshrinks : Shrinks w w' ∧ ∀ p, p ≠ q → w' p = w p := by
    rcases hw' with ⟨-, rfl⟩ | ⟨kept, -, rfl⟩
    · exact ⟨shrinks_remove w q, fun p hp => Function.update_of_ne hp _ _⟩
    · exact ⟨shrinks_filter w q kept, fun p hp => Function.update_of_ne hp _ _⟩
  by_cases hq : Installed env w q
  swap
  · exact ⟨fun _ h => hq h.1, fun _ =>
      unchanged_of_one hshrinks.2 hq (Shrinks.not_installed hshrinks.1 hq)⟩
  obtain ⟨tree, htree⟩ := Option.ne_none_iff_exists'.mp hthere
  rcases hw' with ⟨rfl, rfl⟩ | ⟨kept, rfl, rfl⟩
  · refine ⟨fun h => ?_, fun h => absurd ⟨hq, trivial⟩ h⟩
    have hkept := h.kept q hq
    rw [Function.update_self, htree] at hkept
    cases hkept
  · have hiff : Removes (w q) (.fail kept) ↔ ∃ x ∈ tree, kept x.1 = false := by
      simp [Removes, htree]
    rw [hiff, and_iff_right hq, ← filter_eq_self_iff]
    constructor
    · intro h
      have hkept := h.kept q hq
      rw [Function.update_self, htree] at hkept
      exact Option.some.inj hkept
    · intro h
      rw [htree, Option.map_some, h, ← htree, Function.update_eq_self]
      exact Unchanged.refl

theorem exec_removePin (hpin : pinNode w call.package ≠ some .directory) :
    exec (removePin (call.fault .removePin) call.package) w =
      exec (durable (call.fault .removePin)
        (fun w => Function.update w call.package
          ((w call.package).map fun tree => tree.filter fun x => decide (x.1 ≠ pinPath)))
        fun _ => id) w := by
  have hcheck : exec (check (refuseIf (pinNode w call.package = some .directory) .io)) w =
      (.ok (), w) := exec_check_ok (by simp [hpin]) w
  exact (exec_bind_ok (exec_get w)).trans (exec_bind_ok hcheck)

theorem pinNode_removed :
    pinNode (Function.update w call.package ((w call.package).map fun tree =>
      tree.filter fun x => decide (x.1 ≠ pinPath))) call.package = none := by
  rw [pinNode_update, if_pos rfl]
  rcases w call.package with _ | tree
  · rfl
  · by_contra h
    obtain ⟨node, hnode⟩ := Option.ne_none_iff_exists'.mp h
    have hmem := (List.mem_filter.mp (mem_of_lookup hnode)).2
    simp at hmem

section

variable (hpin : readPin env w call.package = .ok (some pin))
include hpin

theorem valid_of_readPin :
    validatePackageName env pin.package = .ok () ∧ pinNode w call.package ≠ some .directory := by
  obtain ⟨-, hname, bytes, -, hnode, -, -⟩ := readPin_eq_ok_iff.mp hpin
  exact ⟨hname, by simp [hnode]⟩

theorem exec_removeInstalled : exec (removeInstalled env call.fault call.package pin) w =
      exec (do
        touch (call.fault .statOld)
        let w ← get
        if w pin.package = none then
          removePin (call.fault .removePin) call.package
          throw (.failed (.notInstalled call.package))
        else
          removeDirAll (call.fault .removeOld) pin.package
          removePin (call.fault .removePin) call.package) w := by
  have hcheck : exec (check ((validatePackageName env pin.package).mapError fun reason =>
      InstallError.pinRecordMalformed ("stored package name '" ++ sanitiseDisplay pin.package 64 ++
        "' is invalid: " ++ reason))) w = (.ok (), w) := by
    refine exec_check_ok ?_ w
    rw [(valid_of_readPin hpin).1]
    rfl
  exact exec_bind_ok hcheck

theorem pinNode_remove_ne :
    pinNode (Function.update w pin.package none) call.package ≠ some .directory := by
  rw [pinNode_update]
  split_ifs
  · simp
  · exact (valid_of_readPin hpin).2

theorem removeInstalled_failed
    (h : exec (removeInstalled env call.fault call.package pin) w = (.error (.failed e), w')) :
    Unchanged env w w' ↔ ¬ Takes env call w pin := by
  have hinstalled : Installed env w call.package := ⟨pin, hpin⟩
  rw [exec_removeInstalled hpin] at h
  rcases exec_bind_eq_error_iff.mp h with htouch | ⟨⟨⟩, w₁, htouch, hremove⟩
  · obtain ⟨hstat, rfl⟩ := exec_touch_eq_failed htouch
    have hnot : ¬ Takes env call w pin := fun htakes => hstat htakes.1
    exact ⟨fun _ => hnot, fun _ => Unchanged.refl⟩
  obtain ⟨hstat, rfl⟩ := exec_touch_eq_ok htouch
  have hremove := (exec_bind_ok (exec_get _)).symm.trans hremove
  split_ifs at hremove with hnone
  · -- an orphan pin
    have horphan : ¬ Installed env w pin.package :=
      not_installed_of_pinNode (by rw [pinNode, hnone]; rfl)
    rcases exec_bind_eq_error_iff.mp hremove with hfail | ⟨⟨⟩, w₂, hgone, hthrow⟩
    · rw [exec_removePin (valid_of_readPin hpin).2] at hfail
      obtain ⟨-, kept, hfault, hw⟩ := exec_durable_eq_failed_iff.mp hfail
      obtain rfl : w = w' := hw.symm
      have hnot : ¬ Takes env call w pin := by simp [Takes, hfault, horphan]
      exact ⟨fun _ => hnot, fun _ => Unchanged.refl⟩
    · rw [exec_removePin (valid_of_readPin hpin).2] at hgone
      obtain ⟨hfault, rfl⟩ := exec_durable_eq_ok_iff.mp hgone
      obtain rfl := (Prod.mk.inj hthrow).2
      have htakes : Takes env call w pin := ⟨hstat, .inl ⟨.inl hnone, hfault⟩⟩
      exact ⟨fun hsame => absurd hsame (not_unchanged_of_pinNode hinstalled pinNode_removed),
        fun hnot => absurd htakes hnot⟩
  · rcases exec_bind_eq_error_iff.mp hremove with hfail | ⟨⟨⟩, w₂, hgone, hlast⟩
    · obtain ⟨-, kept, hfault, rfl⟩ := exec_durable_eq_failed_iff.mp hfail
      rw [unchanged_remove_iff hnone (.inr ⟨kept, hfault, rfl⟩)]
      simp [Takes, hstat, hnone, hfault]
    · obtain ⟨hfault, rfl⟩ := exec_durable_eq_ok_iff.mp hgone
      rw [exec_removePin (pinNode_remove_ne hpin)] at hlast
      obtain ⟨-, kept, hkept, rfl⟩ := exec_durable_eq_failed_iff.mp hlast
      rw [id_eq, unchanged_remove_iff hnone (.inl ⟨hfault, rfl⟩)]
      simp [Takes, hstat, hkept]

theorem removeInstalled_ok
    (h : exec (removeInstalled env call.fault call.package pin) w = (.ok (), w')) :
    Takes env call w pin ∧ pinNode w' call.package = none := by
  rw [exec_removeInstalled hpin] at h
  obtain ⟨⟨⟩, w₁, htouch, hremove⟩ := exec_bind_eq_ok_iff.mp h
  obtain ⟨hstat, rfl⟩ := exec_touch_eq_ok htouch
  have hremove := (exec_bind_ok (exec_get _)).symm.trans hremove
  split_ifs at hremove with hnone
  · obtain ⟨⟨⟩, w₂, -, hthrow⟩ := exec_bind_eq_ok_iff.mp hremove
    cases hthrow
  · obtain ⟨⟨⟩, w₂, hgone, hlast⟩ := exec_bind_eq_ok_iff.mp hremove
    obtain ⟨hfault, rfl⟩ := exec_durable_eq_ok_iff.mp hgone
    rw [exec_removePin (pinNode_remove_ne hpin)] at hlast
    obtain ⟨hkept, rfl⟩ := exec_durable_eq_ok_iff.mp hlast
    exact ⟨⟨hstat, .inl ⟨.inr hfault, hkept⟩⟩, pinNode_removed⟩

end

/-! ## The whole call -/

theorem exec_touch_stops (h : fault ≠ .none) (w : World) :
    ∃ halt, exec (touch fault) w = (.error halt, w) := by
  rcases fault with _ | kept | kept
  · exact absurd rfl h
  · exact ⟨_, rfl⟩
  · exact ⟨_, rfl⟩

theorem exec_check_stops (h : ∀ a, x ≠ .ok a) (w : World) :
    ∃ halt, exec (check x) w = (.error halt, w) := by
  rcases x with e | a
  · exact ⟨_, rfl⟩
  · exact absurd rfl (h a)

theorem stops_bind {β : Type} {x : Action α} (f : α → Action β)
    (h : ∃ halt, exec x w = (.error halt, w)) : ∃ halt, exec (x >>= f) w = (.error halt, w) := by
  obtain ⟨halt, hx⟩ := h
  exact ⟨halt, exec_bind_error hx⟩

theorem exec_touch_none (h : fault = .none) (w : World) : exec (touch fault) w = (.ok (), w) := by
  rw [h]
  rfl

theorem exec_replaceInstalled (parsed : V) (hpin : readPin env w call.package = .ok (some pin)) :
    (¬ Passes env call pin parsed ∧
        ∃ halt, exec (replaceInstalled env call parsed (some pin)) w = (.error halt, w)) ∨
      Passes env call pin parsed ∧ exec (replaceInstalled env call parsed (some pin)) w =
        exec (removeInstalled env call.fault call.package pin) w := by
  by_cases hforce : call.options.force = true
  swap
  · refine .inl ⟨fun h => hforce h.1, stops_bind _ (exec_check_stops (fun _ => ?_) w)⟩
    simp [hforce]
  have hforced : exec (check (refuseIf (call.options.force = false)
      (InstallError.alreadyInstalled call.package pin.version))) w = (.ok (), w) :=
    exec_check_ok (by simp [hforce]) w
  rw [replaceInstalled, exec_bind_ok hforced]
  by_cases hdown : call.options.allowDowngrade = true ∨
      checkNotDowngrade env call.version pin.version parsed = .ok ()
  swap
  · refine .inl ⟨fun h => hdown h.2.1, stops_bind _ (exec_check_stops (fun _ => ?_) w)⟩
    rw [not_or] at hdown
    rw [if_neg hdown.1]
    exact hdown.2
  have hallowed : exec (check (if call.options.allowDowngrade = true then .ok ()
      else checkNotDowngrade env call.version pin.version parsed)) w = (.ok (), w) := by
    refine exec_check_ok ?_ w
    split_ifs with hallow
    · rfl
    · exact hdown.resolve_left hallow
  rw [exec_bind_ok hallowed, uninstallInner]
  by_cases hreread : call.fault .reread = .none
  swap
  · exact .inl ⟨fun h => hreread h.2.2,
      stops_bind _ (stops_bind _ (exec_touch_stops hreread w))⟩
  have hread : exec (readPinStep env (call.fault .reread) call.package) w = (.ok (some pin), w) := by
    rw [hreread]
    exact exec_readPinStep_ok hpin
  have hfound : exec (check (okOr (some pin) (InstallError.notInstalled call.package))) w =
      (.ok pin, w) := rfl
  rw [exec_bind_ok hread]
  exact .inr ⟨⟨hforce, hdown, hreread⟩, rfl⟩

theorem exec_installToolset (env : Env V) (call : InstallCall) (w : World) :
    (∀ pin, ¬ Replaces env call w pin) ∧
        (∃ halt, exec (installToolset env call) w = (.error halt, w)) ∨
      readPin env w call.package = .ok none ∧
        exec (installToolset env call) w = exec (restOfInstall env call) w ∨
      ∃ pin, Replaces env call w pin ∧ exec (installToolset env call) w =
        exec (removeInstalled env call.fault call.package pin >>=
          fun _ => restOfInstall env call) w := by
  rcases hverify : verifyCall env call with err | parsed
  · refine .inl ⟨fun pin hpin => ?_, stops_bind _ (exec_check_stops (by simp [hverify]) w)⟩
    obtain ⟨parsed, hparsed, -⟩ := hpin.checked
    rw [hverify] at hparsed
    cases hparsed
  rw [installToolset, exec_bind_ok (exec_check_ok hverify w)]
  by_cases hroot : call.fault .createRoot = .none
  swap
  · exact .inl ⟨fun pin hpin => hroot hpin.createRoot,
      stops_bind _ (exec_touch_stops hroot w)⟩
  rw [exec_bind_ok (exec_touch_none hroot w)]
  by_cases hfault : call.fault .readPin = .none
  swap
  · exact .inl ⟨fun pin hpin => hfault hpin.readPin,
      stops_bind _ (stops_bind _ (exec_touch_stops hfault w))⟩
  rcases hread : readPin env w call.package with err | existing
  · refine .inl ⟨fun pin hpin => ?_, stops_bind _ ?_⟩
    · rw [hpin.installed] at hread
      cases hread
    · rw [readPinStep, exec_bind_ok (exec_touch_none hfault w)]
      exact exec_check_stops (by simp [hread]) w
  have hstep : exec (readPinStep env (call.fault .readPin) call.package) w = (.ok existing, w) := by
    rw [hfault]
    exact exec_readPinStep_ok hread
  rw [exec_bind_ok hstep]
  rcases existing with _ | pin
  · exact .inr (.inl ⟨rfl, exec_bind_ok (exec_pure () w)⟩)
  rcases exec_replaceInstalled parsed hread with ⟨hnot, hstops⟩ | ⟨hpasses, hexec⟩
  · refine .inl ⟨fun pin' hpin' => hnot ?_, stops_bind _ hstops⟩
    obtain ⟨parsed', hparsed, hpasses⟩ := hpin'.checked
    obtain rfl : parsed = parsed' := Except.ok.inj (hverify.symm.trans hparsed)
    obtain rfl : pin' = pin := by
      have heq := hpin'.installed.symm.trans hread
      simpa using heq
    exact hpasses
  · refine .inr (.inr ⟨pin, ⟨⟨parsed, hverify, hpasses⟩, hread, hroot, hfault⟩, ?_⟩)
    rw [exec_bind, hexec, ← exec_bind]
    rfl

/-- **When a refused install changes nothing**: exactly when it is not the replacement of a version
that has taken something by then. -/
theorem refused_install_unchanged_iff (env : Env V) (call : InstallCall) (w w' : World)
    (e : InstallError) (hroll : call.fault .rollback = .none)
    (h : exec (installToolset env call) w = (.error (.failed e), w')) :
    Unchanged env w w' ↔ ∀ pin, Replaces env call w pin → ¬ Takes env call w pin := by
  rcases exec_installToolset env call w with ⟨hnot, halt, hstops⟩ | ⟨hnone, hrest⟩ | ⟨pin, hpin, hrun⟩
  · obtain rfl : w = w' := (Prod.mk.inj (hstops.symm.trans h)).2
    exact ⟨fun _ pin hpin => absurd hpin (hnot pin), fun _ => Unchanged.refl⟩
  · have hnoPin : pinNode w call.package = none := pinNode_of_readPin hnone
    have hbeside := restOfInstall_failed hroll hnoPin (hrest.symm.trans h)
    have hsame : Unchanged env w w' := unchanged_of_one hbeside.others
      (not_installed_of_pinNode hnoPin) (not_installed_of_pinNode hbeside.noPin)
    refine ⟨fun _ pin hpin => ?_, fun _ => hsame⟩
    have heq := hpin.installed.symm.trans hnone
    cases heq
  · have honly : (∀ pin', Replaces env call w pin' → ¬ Takes env call w pin') ↔
        ¬ Takes env call w pin := by
      refine ⟨fun hall => hall pin hpin, fun hnot pin' hpin' => ?_⟩
      obtain rfl : pin' = pin := by
        have heq := hpin'.installed.symm.trans hpin.installed
        simpa using heq
      exact hnot
    rw [honly]
    rcases exec_bind_eq_error_iff.mp (hrun.symm.trans h) with hremove | ⟨⟨⟩, w₁, hremove, hrest⟩
    · exact removeInstalled_failed hpin.installed hremove
    · -- the removal went through: the pin is gone for good
      obtain ⟨htakes, hgone⟩ := removeInstalled_ok hpin.installed hremove
      have hlost := (restOfInstall_failed hroll hgone hrest).noPin
      exact ⟨fun hsame => absurd hsame (not_unchanged_of_pinNode ⟨pin, hpin.installed⟩ hlost),
        fun hnot => absurd htakes hnot⟩

end

/-! ## A version that is lost -/

/-- Every archive is empty. -/
def emptyArchiveEnv : Env ℕ := { plantedEnv with unpack := fun _ => ⟨[], some false⟩ }

/-- The package `p` is installed. -/
def installedWorld : World := fun q =>
  if q = "p" then some [(pinPath, .file (Base.Utf8.encode (pinText plantedRecord).toList))] else none

/-- An install of the package, with `force` or without; no step fails. -/
def emptyArchiveCall (force : Bool) : InstallCall :=
  { plantedCall .none with options := ⟨force, false, false⟩ }

def emptyArchiveRun (force : Bool) : Except Halt AttestationOutcome × World :=
  exec (installToolset emptyArchiveEnv (emptyArchiveCall force)) installedWorld

theorem installedWorld_installed : Installed emptyArchiveEnv installedWorld "p" :=
  ⟨plantedRecord, by decide +kernel⟩

/-- **A forced install that is refused takes the version that was there**: the archive is empty, and
the package is gone. -/
theorem forced_reinstall_loses_version :
    (emptyArchiveRun true).1 =
        .error (.failed (.archiveBadTopLevel "archive is empty (zero entries)")) ∧
      ¬ Unchanged emptyArchiveEnv installedWorld (emptyArchiveRun true).2 := by
  refine ⟨by decide +kernel, fun h => ?_⟩
  have hkept := h.kept "p" installedWorld_installed
  exact absurd hkept (by decide +kernel)

/-- Without `force` the same call is refused before it takes anything. -/
theorem unforced_reinstall_unchanged :
    (emptyArchiveRun false).1 = .error (.failed (.alreadyInstalled "p" "1.0.0")) ∧
      Unchanged emptyArchiveEnv installedWorld (emptyArchiveRun false).2 := by
  have hstops : emptyArchiveRun false =
      (.error (.failed (.alreadyInstalled "p" "1.0.0")), (emptyArchiveRun false).2) :=
    Prod.ext (by decide +kernel) rfl
  refine ⟨by rw [hstops], (refused_install_unchanged_iff emptyArchiveEnv (emptyArchiveCall false)
    installedWorld _ _ rfl hstops).mpr fun pin hpin => ?_⟩
  obtain ⟨_, -, hforce, -⟩ := hpin.checked
  cases hforce

end AgentWallet.Toolsets.Refusal
