import AgentWallet.PolicyState.Images

/-!
# The durable state of the window store

The store keeps two durable things: the file and a counter in the keyring.  The counter names the
generation of the committed body and, since version 3, the SHA-256 digest of that body; older
counters are numeric.  A read verifies the file's tag, parses its body and lets `selectGeneration`
pick the image the counter commits to.
-/

namespace AgentWallet.PolicyState.Durable

open Base.Saturating PolicyState.Wire PolicyState.Images

variable {wire b next : WireFile}

/-- The primitives under the store: `serde_json::to_vec` and `from_slice` (with its error text),
the HMAC tag of a body under the profile's key, and the hex SHA-256 of a body. -/
structure Codec (Body Tag Digest : Type) where
  toVec : WireFile → Body
  fromSlice : Body → Except String WireFile
  computeTag : Body → Tag
  sha256 : Body → Digest

/-- What is assumed of the primitives: a body parses back to the file it was made from, and no two
bodies have one digest. -/
structure Codec.Lawful {Body Tag Digest : Type} (C : Codec Body Tag Digest) : Prop where
  fromSlice_toVec : ∀ w, C.fromSlice (C.toVec w) = .ok w
  sha256_injective : C.sha256.Injective

/-- The primitives with nothing encoded: a body is its own bytes and its own digest. -/
def plainCodec : Codec WireFile Unit WireFile := ⟨id, .ok, fun _ => (), id⟩

theorem plainCodec_lawful : plainCodec.Lawful := ⟨fun _ => rfl, fun _ _ h => h⟩

structure GenerationState (Digest : Type) where
  generation : ℕ
  bodySha256 : Option Digest

/-- The bytes of the file: fewer than the 32 of a tag, or a tag and a body. -/
inductive FileContent (Body Tag : Type) where
  | short
  | tagged (tag : Tag) (body : Body)

/-- The durable state: the keyring counter and the file. -/
structure StoreState (Body Tag Digest : Type) where
  counter : Option (GenerationState Digest)
  file : Option (FileContent Body Tag)

variable {Body Tag Digest : Type} [DecidableEq Tag] [DecidableEq Digest] (C : Codec Body Tag Digest)

/-! ## Reading -/

variable {d : StoreState Body Tag Digest} {content : FileContent Body Tag}
  {counter : Option (GenerationState Digest)}

/-- Checks the tag, parses the body and refuses versions newer than this build reads. -/
def verifyWithKey : FileContent Body Tag → Except WindowStoreError WireFile
  | .short => .error (.invalid "store file is shorter than the HMAC tag prefix")
  | .tagged tag body =>
    if tag ≠ C.computeTag body then .error .hmacMismatch
    else match C.fromSlice body with
      | .error e => .error (.invalid ("store body is not valid JSON: " ++ e))
      | .ok wire =>
        if wire.version > wireVersion then
          .error (.invalid ("store file wire version " ++ toString wire.version ++
            " is newer than this build reads (max 3)"))
        else .ok wire

def bodyDigest (wire : WireFile) : Digest := C.sha256 (C.toVec wire)

/-- A prepared candidate the selection refuses. -/
def candidateRefused (wire : WireFile) : Bool :=
  match wire.prepared with
  | none => false
  | some next =>
    decide (wire.version ≠ wireVersion) || decide (next.version ≠ wireVersion) ||
      next.prepared.isSome || decide (checkedAdd u64Max wire.generation 1 ≠ some next.generation)

/-- The image of the counter's generation: the file's own, or its candidate when the counter
carries a digest. -/
def imageAt (wire : WireFile) (counter : GenerationState Digest) : Option WireFile :=
  if counter.generation = wire.generation then some { wire with prepared := none }
  else match counter.bodySha256, wire.prepared with
    | some _, some next => if counter.generation = next.generation then some next else none
    | _, _ => none

/-- The image that the generation counter names; its digest has to be the recorded one. -/
def selectGeneration (wire : WireFile) (counter : Option (GenerationState Digest)) :
    Except WindowStoreError WireFile :=
  if candidateRefused wire then .error .generationMismatch
  else match counter with
    | none => .error .generationMismatch
    | some counter =>
      match imageAt wire counter with
      | none => .error .generationMismatch
      | some wire =>
        match counter.bodySha256 with
        | none => .ok wire
        | some expected =>
          if expected ≠ bodyDigest C wire then .error .generationMismatch else .ok wire

/-- Reads and verifies the file; without a file and without a counter it is the first run. -/
def readVerified (d : StoreState Body Tag Digest) : Except WindowStoreError WireFile :=
  match d.file with
  | some content =>
    match verifyWithKey C content with
    | .error e => .error e
    | .ok wire => selectGeneration C wire d.counter
  | none =>
    match d.counter with
    | none => .ok emptyFile
    | some _ => .error .generationMismatch

/-! ## Writing -/

inductive Write where
  | generation (wire : WireFile)
  | file (wire : WireFile)

/-- The bytes `write_atomic` puts in place. -/
def contentOf (wire : WireFile) : FileContent Body Tag :=
  .tagged (C.computeTag (C.toVec wire)) (C.toVec wire)

/-- `write_generation` and `write_atomic`. -/
def applyWrite (d : StoreState Body Tag Digest) : Write → StoreState Body Tag Digest
  | .generation wire => { d with counter := some ⟨wire.generation, some (bodyDigest C wire)⟩ }
  | .file wire => { d with file := some (contentOf C wire) }

def applyWrites (d : StoreState Body Tag Digest) (ws : List Write) : StoreState Body Tag Digest :=
  ws.foldl (applyWrite C) d

/-- The writes of `commit_generation`. -/
def commitWrites (original next : WireFile) : Except WindowStoreError (List Write) :=
  match incrementGeneration original.generation with
  | .error e => .error e
  | .ok generation =>
    let next := { next with generation := generation, prepared := none }
    if original.generation = 0 then .ok [.generation next, .file next]
    else .ok [.file { original with version := wireVersion, prepared := some next },
      .generation next, .file next]

/-- The operations of the store that write, with the host clock they run at. -/
inductive Command where
  | store (op : StoreOp) (nowMs : ℕ)
  | reset

/-- A settlement goes through `rewrite_records`. -/
def isSettlement : StoreOp → Bool
  | .confirm _ _ => true
  | .release _ => true
  | .markOperatorRequired _ => true
  | _ => false

/-- `confirm` without a close time returns before it reads. -/
def returnsEarly : StoreOp → Bool
  | .confirm _ createdAt => (closeMs createdAt).isNone
  | _ => false

def nextGeneration (d : StoreState Body Tag Digest) : Except WindowStoreError ℕ :=
  incrementGeneration ((d.counter.map (·.generation)).getD 0)

/-- The durable writes an operation is going to make, or its failure. -/
def plan (d : StoreState Body Tag Digest) : Command → Except WindowStoreError (List Write)
  | .store op nowMs =>
    if returnsEarly op then .ok []
    else match readVerified C d with
      | .error e => .error e
      | .ok wire =>
        match op.image nowMs wire with
        | .error e => .error e
        | .ok none => .ok []
        | .ok (some image) =>
          if isSettlement op then commitWrites wire image
          else match nextGeneration d with
            | .error e => .error e
            | .ok generation =>
              let next := { image with generation := generation }
              .ok [.generation next, .file next]
  | .reset =>
    match nextGeneration d with
    | .error e => .error e
    | .ok generation =>
      let empty : WireFile := ⟨wireVersion, generation, [], none⟩
      .ok [.generation empty, .file empty]

/-- Runs an operation that stops after at most `k` of its durable writes. -/
def runCommand (d : StoreState Body Tag Digest) (cmd : Command)
    (k : ℕ) : StoreState Body Tag Digest :=
  match plan C d cmd with
  | .error _ => d
  | .ok ws => applyWrites C d (ws.take k)

/-! ## What a read returns -/

variable {C} {ws : List Write}

omit [DecidableEq Digest] in
theorem verify_contentOf (hC : C.Lawful) (hv : wire.version ≤ wireVersion) :
    verifyWithKey C (contentOf C wire) = .ok wire := by
  simp only [contentOf, verifyWithKey, ne_eq, not_true_eq_false, if_false, hC.fromSlice_toVec]
  rw [if_neg (by omega)]

omit [DecidableEq Digest] in
theorem verify_version_le (h : verifyWithKey C content = .ok wire) :
    wire.version ≤ wireVersion := by
  cases content with
  | short => cases h
  | tagged tag body =>
    simp only [verifyWithKey] at h
    split_ifs at h
    split at h
    · cases h
    · split_ifs at h with hv
      cases h
      omega

theorem candidateRefused_eq_false (h : wire.prepared = some next) :
    candidateRefused wire = false ↔ wire.version = wireVersion ∧ next.version = wireVersion ∧
      next.prepared = none ∧ checkedAdd u64Max wire.generation 1 = some next.generation := by
  simp [candidateRefused, h, and_assoc]

omit [DecidableEq Tag] in
/-- **What the selection accepts.**  The image has the counter's generation, the digest the counter
carries and no candidate of its own; it is the file's image or the file's candidate. -/
theorem selectGeneration_eq_ok (h : selectGeneration C wire counter = .ok b) :
    candidateRefused wire = false ∧ ∃ c, counter = some c ∧ c.generation = b.generation ∧
        (∀ D, c.bodySha256 = some D → D = bodyDigest C b) ∧ (b = { wire with prepared := none } ∨
          (wire.prepared = some b ∧ b.version = wireVersion ∧ b.prepared = none)) := by
  unfold selectGeneration at h
  split_ifs at h with href
  refine ⟨by simpa using href, ?_⟩
  split at h
  · cases h
  rename_i c
  split at h
  · cases h
  rename_i b' himage
  have hb : b' = b ∧ ∀ D, c.bodySha256 = some D → D = bodyDigest C b := by
    split at h
    · rename_i hnone
      cases h
      exact ⟨rfl, fun D hD => by rw [hnone] at hD; cases hD⟩
    · rename_i expected hsome
      split_ifs at h with hne
      cases h
      refine ⟨rfl, fun D hD => ?_⟩
      rw [hsome] at hD
      cases hD
      simpa using hne
  obtain ⟨rfl, hdig⟩ := hb
  unfold imageAt at himage
  split_ifs at himage with hgen
  · cases himage
    exact ⟨c, rfl, hgen, hdig, Or.inl rfl⟩
  · split at himage
    · rename_i D next hD hnext
      split_ifs at himage with hgen'
      cases himage
      obtain ⟨-, hv, hp, -⟩ := (candidateRefused_eq_false hnext).1 (by simpa using href)
      exact ⟨c, rfl, hgen', hdig, Or.inr ⟨hnext, hv, hp⟩⟩
    · cases himage

omit [DecidableEq Tag] in
theorem selectGeneration_error {e : WindowStoreError}
    (h : selectGeneration C wire counter = .error e) : e = .generationMismatch := by
  unfold selectGeneration at h
  split_ifs at h
  · cases h; rfl
  split at h
  · cases h; rfl
  split at h
  · cases h; rfl
  split at h
  · cases h
  · split_ifs at h
    cases h; rfl

omit [DecidableEq Tag] in
theorem selectGeneration_of_plain (hp : wire.prepared = none) {c : GenerationState Digest}
    (hg : c.generation = wire.generation) (hd : ∀ D, c.bodySha256 = some D → D = bodyDigest C wire) :
    selectGeneration C wire (some c) = .ok wire := by
  have href : candidateRefused wire = false := by simp [candidateRefused, hp]
  have himage : imageAt wire c = some wire := by
    unfold imageAt
    rw [if_pos hg, WireFile.dropPrepared_eq hp]
  unfold selectGeneration
  rw [href]
  simp only [himage]
  cases hD : c.bodySha256 with
  | none => rfl
  | some D =>
    have hDb := hd D hD
    simp [hDb]

theorem readVerified_eq_ok (h : readVerified C d = .ok b) :
    (d.file = none ∧ d.counter = none ∧ b = emptyFile) ∨
      ∃ content wire, d.file = some content ∧ verifyWithKey C content = .ok wire ∧
        selectGeneration C wire d.counter = .ok b := by
  unfold readVerified at h
  split at h
  · rename_i content hfile
    split at h
    · cases h
    · rename_i wire hver
      exact Or.inr ⟨content, wire, hfile, hver, h⟩
  · rename_i hfile
    split at h
    · rename_i hcounter
      cases h
      exact Or.inl ⟨hfile, hcounter, rfl⟩
    · cases h

theorem readVerified_of_file (hf : d.file = some content) (hv : verifyWithKey C content = .ok wire) :
    readVerified C d = selectGeneration C wire d.counter := by
  simp [readVerified, hf, hv]

theorem readVerified_plain (h : readVerified C d = .ok b) :
    b.prepared = none ∧ b.version ≤ wireVersion := by
  rcases readVerified_eq_ok h with ⟨-, -, rfl⟩ | ⟨content, wire, -, hver, hsel⟩
  · exact ⟨rfl, le_rfl⟩
  · obtain ⟨-, c, -, -, -, rfl | ⟨-, hv, hp⟩⟩ := selectGeneration_eq_ok hsel
    · have hv : wire.version ≤ wireVersion := verify_version_le hver
      exact ⟨rfl, hv⟩
    · exact ⟨hp, hv.le⟩

theorem readVerified_generation (h : readVerified C d = .ok b) :
    (d.counter.map (·.generation)).getD 0 = b.generation := by
  rcases readVerified_eq_ok h with ⟨-, hc, rfl⟩ | ⟨content, wire, -, -, hsel⟩
  · rw [hc]; rfl
  · obtain ⟨-, c, hc, hg, -, -⟩ := selectGeneration_eq_ok hsel
    rw [hc]; exact hg

/-! ## What an operation is going to write -/

omit [DecidableEq Tag] [DecidableEq Digest] in
theorem image_plain {op : StoreOp} {nowMs : ℕ} {image : WireFile}
    (h : op.image nowMs wire = .ok (some image)) :
    image.version = wireVersion ∧ image.prepared = wire.prepared := by
  cases op with
  | recordPending es res =>
    obtain ⟨-, -, rfl⟩ := pendingImage_eq_ok (map_some_eq_ok h)
    exact ⟨rfl, rfl⟩
  | recordAuthorized es =>
    obtain ⟨-, rfl⟩ := settledImage_eq_ok (map_some_eq_ok h)
    exact ⟨rfl, rfl⟩
  | recordAndPersist es =>
    have hset : settledImage false es nowMs wire = .ok image := map_some_eq_ok h
    obtain ⟨-, rfl⟩ := settledImage_eq_ok hset
    exact ⟨rfl, rfl⟩
  | confirm id createdAt =>
    obtain ⟨ms, -, hrw⟩ := Option.bind_eq_some_iff.1 (Except.ok.inj h)
    rw [rewriteImage_eq_some hrw]
    exact ⟨rfl, rfl⟩
  | release id | markOperatorRequired id =>
    rw [rewriteImage_eq_some (Except.ok.inj h)]
    exact ⟨rfl, rfl⟩

omit [DecidableEq Tag] [DecidableEq Digest] in
theorem incrementGeneration_eq_ok {g g' : ℕ} (h : incrementGeneration g = .ok g') :
    g' = g + 1 ∧ g + 1 ≤ u64Max := by
  unfold incrementGeneration checkedAdd at h
  split_ifs at h with hle
  cases h
  exact ⟨rfl, hle⟩

/-- A body as `write_generation` and `write_atomic` are given it: of the current version and without
a candidate. -/
def Plain (w : WireFile) : Prop := w.version = wireVersion ∧ w.prepared = none

/-- The image a settlement writes first: the current one, with the candidate in it. -/
def preparedImage (original next : WireFile) : WireFile :=
  { original with version := wireVersion, prepared := some next }

/-- The body a settlement commits after `original`. -/
def settledBody (original next : WireFile) : WireFile :=
  { next with generation := original.generation + 1, prepared := none }

omit [DecidableEq Tag] [DecidableEq Digest] in
theorem commitWrites_eq_ok {original : WireFile} (h : commitWrites original next = .ok ws) :
    (original.generation = 0 ∧
      ws = [.generation (settledBody original next), .file (settledBody original next)]) ∨
    (original.generation ≠ 0 ∧ original.generation + 1 ≤ u64Max ∧
      ws = [.file (preparedImage original (settledBody original next)),
        .generation (settledBody original next), .file (settledBody original next)]) := by
  unfold commitWrites at h
  split at h
  · cases h
  · rename_i g hg
    obtain ⟨rfl, hle⟩ := incrementGeneration_eq_ok hg
    split_ifs at h with h0
    · cases h
      exact Or.inl ⟨h0, rfl⟩
    · cases h
      exact Or.inr ⟨h0, hle, rfl⟩

/-- **What an operation is going to write.**  Nothing; or a body, counter first; or a settlement of
the body it read. -/
theorem plan_cases {cmd : Command} (h : plan C d cmd = .ok ws) : ws = [] ∨
    (∃ next, Plain next ∧ (d.counter.map (·.generation)).getD 0 + 1 = next.generation ∧
      ws = [.generation next, .file next]) ∨
    (∃ original next, readVerified C d = .ok original ∧ original.generation ≠ 0 ∧ Plain next ∧
      original.generation + 1 = next.generation ∧ next.generation ≤ u64Max ∧
      ws = [.file (preparedImage original next), .generation next, .file next]) := by
  cases cmd with
  | reset =>
    unfold plan nextGeneration at h
    dsimp only at h
    split at h
    · cases h
    · rename_i g hg
      cases h
      obtain ⟨rfl, -⟩ := incrementGeneration_eq_ok hg
      exact Or.inr (Or.inl ⟨_, ⟨rfl, rfl⟩, rfl, rfl⟩)
  | store op nowMs =>
    simp only [plan] at h
    by_cases hearly : returnsEarly op = true
    · rw [if_pos hearly] at h
      cases h
      exact Or.inl rfl
    rw [if_neg hearly] at h
    cases hread : readVerified C d with
    | error e => simp [hread] at h
    | ok wire =>
      obtain ⟨hprep, -⟩ := readVerified_plain hread
      have hgen := readVerified_generation hread
      simp only [hread] at h
      cases himage : op.image nowMs wire with
      | error e => simp [himage] at h
      | ok img =>
        cases img with
        | none =>
          simp only [himage] at h
          cases h
          exact Or.inl rfl
        | some image =>
          simp only [himage] at h
          obtain ⟨hv, hp⟩ := image_plain himage
          by_cases hset : isSettlement op = true
          · rw [if_pos hset] at h
            rcases commitWrites_eq_ok h with ⟨h0, rfl⟩ | ⟨h0, hle, rfl⟩
            · refine Or.inr (Or.inl ⟨settledBody wire image, ⟨hv, rfl⟩, ?_, rfl⟩)
              rw [hgen]
              rfl
            · exact Or.inr (Or.inr ⟨wire, settledBody wire image, rfl, h0, ⟨hv, rfl⟩, rfl, hle, rfl⟩)
          · rw [if_neg hset] at h
            split at h
            · cases h
            · rename_i g hg
              obtain ⟨rfl, -⟩ := incrementGeneration_eq_ok hg
              cases h
              exact Or.inr (Or.inl ⟨{ image with generation := _ }, ⟨hv, hp.trans hprep⟩, rfl, rfl⟩)

end AgentWallet.PolicyState.Durable
