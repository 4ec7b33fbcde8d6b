import AgentWallet.Base.Runs
import AgentWallet.Nonces.Mint

/-!
# One verification per minted nonce

The nonce authority of one process over a whole run.  A `World` holds the replay window and, for the
record, what was minted and what was verified; between `verify_hmac_only` and the recording of the
nonce a verification is in flight, and other calls may come in between.
-/

namespace AgentWallet.Nonces.SingleUse

open Base.Runs Mint

/-- A verification between its two phases. -/
structure Flight (Tag : Type) where
  binding : Binding
  nonce : Nonce Tag
  /-- The time read at the start of the call, used by both phases. -/
  nowMs : ℕ

/-- The authority's state, and what it has done so far. -/
structure World (Tag : Type) where
  clock : ℕ
  window : ReplayWindow Tag
  inFlight : List (Flight Tag)
  minted : List (Binding × Nonce Tag)
  verified : List (Binding × Nonce Tag)

def World.start (Tag : Type) (clock : ℕ) : World Tag := ⟨clock, [], [], [], []⟩

inductive Event (Tag : Type) where
  | advance (ms : ℕ)
  | mint (b : Binding) (key : Except NonceError Unit) (salt : Vector UInt8 16)
  | verify (n : Nonce Tag) (b : Binding) (key : Except NonceError Unit)
  | verifyHmacOnly (n : Nonce Tag) (b : Binding) (key : Except NonceError Unit)
  | recordVerified (i : ℕ)
  | evictExpired

variable {Digest Tag : Type} [DecidableEq Tag]

/-- The second phase of a verification, under the window's lock. -/
def recordFlight (w : World Tag) (f : Flight Tag) : World Tag :=
  let window := evictExpired w.window f.nowMs
  match recordVerifiedNonce window f.nonce f.binding.expiryUnixMs.toNat with
  | .ok window' => { w with window := window', verified := (f.binding, f.nonce) :: w.verified }
  | .error _ => { w with window := window }

/-- Verification is one step, or two with other steps in between. -/
def step (H : Hashes Digest Tag) (m : NonceMint) (isRegistered : String → Bool) (w : World Tag) :
    Event Tag → World Tag
  | .advance ms => { w with clock := w.clock + ms }
  | .mint b key salt =>
    match mint H m isRegistered b w.clock key salt with
    | .ok n => { w with minted := (b, n) :: w.minted }
    | .error _ => w
  | .verify n b key =>
    match verify H m w.window n b w.clock key with
    | .ok window => { w with window := window, verified := (b, n) :: w.verified }
    | .error _ => w
  | .verifyHmacOnly n b key =>
    match verifyHmacOnly H m n b w.clock key with
    | .ok () => { w with inFlight := ⟨b, n, w.clock⟩ :: w.inFlight }
    | .error _ => w
  | .recordVerified i =>
    match w.inFlight[i]? with
    | some f => recordFlight { w with inFlight := w.inFlight.eraseIdx i } f
    | none => w
  | .evictExpired => { w with window := evictExpired w.window w.clock }

/-- The tag of a presented nonce, if it fits the binding, was issued for it: nobody forges tags. -/
def Unforged (H : Hashes Digest Tag) (m : NonceMint) (w : World Tag) : Event Tag → Prop
  | .verify n b _ | .verifyHmacOnly n b _ =>
    computeTag H m b = .ok n.tag → ∃ n', (b, n') ∈ w.minted ∧ n'.tag = n.tag
  | _ => True

/-- A presented nonce that fits the binding is one the mint returned, and a verification in flight
is recorded before the binding expires. -/
def Genuine (H : Hashes Digest Tag) (m : NonceMint) (w : World Tag) : Event Tag → Prop
  | .verify n b _ | .verifyHmacOnly n b _ =>
    computeTag H m b = .ok n.tag → ∃ b', (b', n) ∈ w.minted
  | .recordVerified i => ∀ f ∈ w.inFlight[i]?, w.clock < f.binding.expiryUnixMs.toNat
  | _ => True

/-- Each binding was verified at most as often as nonces were minted for it. -/
def AtMostMinted (w : World Tag) : Prop :=
  ∀ b, (w.verified.map Prod.fst).count b ≤ (w.minted.map Prod.fst).count b

/-! ## The invariant -/

/-- What holds of a genuine run: the verified nonces are distinct minted ones, and those that have
not expired are in the window. -/
structure Sound (H : Hashes Digest Tag) (m : NonceMint) (w : World Tag) : Prop where
  tagged : ∀ p ∈ w.minted, computeTag H m p.1 = .ok p.2.tag
  minted : ∀ p ∈ w.verified, p ∈ w.minted
  nodup : w.verified.Nodup
  recorded : ∀ p ∈ w.verified, w.clock < p.1.expiryUnixMs.toNat →
    (p.2, p.1.expiryUnixMs.toNat) ∈ w.window
  flying : ∀ f ∈ w.inFlight, (f.binding, f.nonce) ∈ w.minted ∧ f.nowMs ≤ w.clock

section Steps

variable {H : Hashes Digest Tag} {m : NonceMint} {w : World Tag}

omit [DecidableEq Tag] in
theorem Sound.start (clock : ℕ) : Sound H m (World.start Tag clock) := by
  constructor <;> simp [World.start]

omit [DecidableEq Tag] in
theorem Sound.binding_of_minted (hsha : Function.Injective H.sha256)
    (hhmac : Function.Injective H.hmac) (h : Sound H m w) {n : Nonce Tag} {b b' : Binding}
    (htag : computeTag H m b = .ok n.tag) (hmem : (b', n) ∈ w.minted) : (b, n) ∈ w.minted := by
  have heq : b = b' := computeTag_inj hsha hhmac htag (h.tagged _ hmem)
  rw [heq]
  exact hmem

omit [DecidableEq Tag] in
theorem Sound.pass (h : Sound H m w) {clock : ℕ} {window : ReplayWindow Tag}
    (hclock : w.clock ≤ clock) (hlive : ∀ e ∈ w.window, clock < e.2 → e ∈ window) :
    Sound H m { w with clock := clock, window := window } where
  tagged := h.tagged
  minted := h.minted
  nodup := h.nodup
  recorded p hp hlt := hlive _ (h.recorded p hp (hclock.trans_lt hlt)) hlt
  flying f hf := ⟨(h.flying f hf).1, (h.flying f hf).2.trans hclock⟩

omit [DecidableEq Tag] in
theorem Sound.consume (h : Sound H m w) {b : Binding} {n : Nonce Tag} (hmem : (b, n) ∈ w.minted)
    (hlt : w.clock < b.expiryUnixMs.toNat) (hfree : ¬ Consumed w.window n) :
    Sound H m { w with window := (n, b.expiryUnixMs.toNat) :: w.window,
                       verified := (b, n) :: w.verified } where
  tagged := h.tagged
  minted := by
    intro p hp
    rcases List.mem_cons.1 hp with rfl | hp
    · exact hmem
    · exact h.minted p hp
  nodup := by
    -- were it verified before, it would still be in the window
    refine List.nodup_cons.2 ⟨fun hold => hfree ?_, h.nodup⟩
    exact ⟨_, h.recorded _ hold hlt, rfl⟩
  recorded := by
    intro p hp hltp
    rcases List.mem_cons.1 hp with rfl | hp
    · exact List.mem_cons_self
    · exact List.mem_cons_of_mem _ (h.recorded p hp hltp)
  flying := h.flying

theorem Sound.mint (h : Sound H m w) {isRegistered : String → Bool} {b : Binding}
    {key : Except NonceError Unit} {salt : Vector UInt8 16} :
    Sound H m (step H m isRegistered w (.mint b key salt)) := by
  unfold step
  dsimp only
  split
  · rename_i n hn
    constructor
    · intro p hp
      rcases List.mem_cons.1 hp with rfl | hp
      · exact (mint_eq_ok hn).2
      · exact h.tagged p hp
    · exact fun p hp => List.mem_cons_of_mem _ (h.minted p hp)
    · exact h.nodup
    · exact h.recorded
    · exact fun f hf => ⟨List.mem_cons_of_mem _ (h.flying f hf).1, (h.flying f hf).2⟩
  · exact h

theorem Sound.recordFlight (h : Sound H m w) {f : Flight Tag}
    (hmem : (f.binding, f.nonce) ∈ w.minted) (hnow : f.nowMs ≤ w.clock)
    (hlt : w.clock < f.binding.expiryUnixMs.toNat) : Sound H m (recordFlight w f) := by
  have hevicted : Sound H m { w with window := evictExpired w.window f.nowMs } :=
    h.pass le_rfl fun e he hlive => (mem_evictExpired (hnow.trans_lt hlive)).2 he
  unfold SingleUse.recordFlight recordVerifiedNonce
  dsimp only
  split
  · rename_i window' hrecord
    obtain ⟨hfree, rfl⟩ := record_eq_ok hrecord
    exact hevicted.consume hmem hlt hfree
  · exact hevicted

/-- **One event** of a genuine run. -/
theorem Sound.step (hsha : Function.Injective H.sha256) (hhmac : Function.Injective H.hmac)
    (isRegistered : String → Bool) (w : World Tag) (e : Event Tag) (h : Sound H m w)
    (hok : Genuine H m w e) : Sound H m (step H m isRegistered w e) := by
  match e with
  | .advance ms => exact h.pass (Nat.le_add_right _ _) fun e he _ => he
  | .mint b key salt => exact h.mint
  | .verify n b key =>
    unfold SingleUse.step
    dsimp only
    split
    · rename_i window hverify
      obtain ⟨hlt, htag, hfree, rfl⟩ := verify_eq_ok hverify
      obtain ⟨b', hmem⟩ := hok htag
      exact h.consume (h.binding_of_minted hsha hhmac htag hmem) hlt hfree
    · exact h
  | .verifyHmacOnly n b key =>
    unfold SingleUse.step
    dsimp only
    split
    · rename_i hverify
      obtain ⟨-, htag⟩ := verifyHmacOnly_eq_ok hverify
      obtain ⟨b', hmem⟩ := hok htag
      refine ⟨h.tagged, h.minted, h.nodup, h.recorded, fun f hf => ?_⟩
      rcases List.mem_cons.1 hf with rfl | hf
      · exact ⟨h.binding_of_minted hsha hhmac htag hmem, le_rfl⟩
      · exact h.flying f hf
    · exact h
  | .recordVerified i =>
    unfold SingleUse.step
    dsimp only
    split
    · rename_i f hf
      have hmemf : f ∈ w.inFlight := List.mem_of_getElem? hf
      have hrest : Sound H m { w with inFlight := w.inFlight.eraseIdx i } :=
        ⟨h.tagged, h.minted, h.nodup, h.recorded,
          fun g hg => h.flying g (List.mem_of_mem_eraseIdx hg)⟩
      exact hrest.recordFlight (h.flying f hmemf).1 (h.flying f hmemf).2 (hok f hf)
    · exact h
  | .evictExpired => exact h.pass le_rfl fun e he hlive => (mem_evictExpired hlive).2 he

omit [DecidableEq Tag] in
theorem Sound.atMostMinted (h : Sound H m w) : AtMostMinted w := by
  intro b
  obtain ⟨l, hperm, hsub⟩ := h.nodup.subperm h.minted
  calc (w.verified.map Prod.fst).count b
      = (l.map Prod.fst).count b := ((hperm.map Prod.fst).count_eq b).symm
    _ ≤ (w.minted.map Prod.fst).count b := (hsub.map Prod.fst).count_le b

end Steps

/-- **Single use.**  Along a run in which every presented nonce that fits is one the mint returned
and no verification is recorded after its expiry, no binding is verified more often than minted
for. -/
theorem verified_le_minted {H : Hashes Digest Tag} (hsha : Function.Injective H.sha256)
    (hhmac : Function.Injective H.hmac) (m : NonceMint) (isRegistered : String → Bool) (clock : ℕ)
    (events : List (Event Tag))
    (hgenuine : Along (step H m isRegistered) (Genuine H m) (World.start Tag clock) events) :
    AtMostMinted (run (step H m isRegistered) (World.start Tag clock) events) := by
  have hsound := run_invariant_along (Sound.step hsha hhmac isRegistered) events
    (World.start Tag clock) (Sound.start clock) hgenuine
  exact hsound.atMostMinted

/-! ## Without the conditions -/

/-- Hashes that are the identity on their messages. -/
def plainHashes : Hashes (List UInt8) (List (Base.Framing.Sym (List UInt8))) := ⟨id, id⟩

def payment : Binding := ⟨[1, 2, 3], 60000, "stellar_pay_commit", "stellar:testnet"⟩

def testMint : NonceMint := NonceMint.fromProfile "stellar:testnet" (Vector.replicate 16 7)

/-- The payment's tag behind a given salt; the mint draws salt 0. -/
def paymentNonce (salt : UInt8) : Nonce (List (Base.Framing.Sym (List UInt8))) :=
  ⟨Vector.replicate 16 salt, tagInput plainHashes testMint payment⟩

def mintPayment : Event (List (Base.Framing.Sym (List UInt8))) :=
  .mint payment (.ok ()) (Vector.replicate 16 0)

def verifyPayment (salt : UInt8) : Event (List (Base.Framing.Sym (List UInt8))) :=
  .verify (paymentNonce salt) payment (.ok ())

def paymentRun (events : List (Event (List (Base.Framing.Sym (List UInt8))))) :
    World (List (Base.Framing.Sym (List UInt8))) :=
  run (step plainHashes testMint fun _ => true) (World.start _ 0) events

/-- Verified once, and refused when the same nonce is presented to the split verification. -/
theorem verified_le_minted_payment :
    (paymentRun [mintPayment, verifyPayment 0, .verifyHmacOnly (paymentNonce 0) payment (.ok ()),
      .recordVerified 0]).verified.length = 1 ∧
    AtMostMinted (paymentRun [mintPayment, verifyPayment 0,
      .verifyHmacOnly (paymentNonce 0) payment (.ok ()), .recordVerified 0]) := by
  refine ⟨by decide +kernel, ?_⟩
  refine verified_le_minted Function.injective_id Function.injective_id testMint _ 0 _ ?_
  refine ⟨trivial, fun _ => ⟨payment, ?_⟩, fun _ => ⟨payment, ?_⟩, ?_, trivial⟩
  · decide +kernel
  · decide +kernel
  · unfold Genuine
    decide +kernel

/-- The payment is verified twice for one minted nonce, with no tag forged: behind another salt, and
by a verification that stalls until the window has forgotten the nonce. -/
theorem payment_verified_twice :
    (Along (step plainHashes testMint fun _ => true) (Unforged plainHashes testMint)
        (World.start _ 0) [mintPayment, verifyPayment 0, verifyPayment 1] ∧
      ¬ AtMostMinted (paymentRun [mintPayment, verifyPayment 0, verifyPayment 1])) ∧
    ¬ AtMostMinted (paymentRun [mintPayment, .verifyHmacOnly (paymentNonce 0) payment (.ok ()),
      verifyPayment 0, .advance 60000, .evictExpired, .recordVerified 0]) := by
  refine ⟨⟨⟨trivial, fun _ => ⟨paymentNonce 0, ?_⟩, fun _ => ⟨paymentNonce 0, ?_⟩, trivial⟩,
    fun h => absurd (h payment) ?_⟩, fun h => absurd (h payment) ?_⟩ <;> decide +kernel

end AgentWallet.Nonces.SingleUse
