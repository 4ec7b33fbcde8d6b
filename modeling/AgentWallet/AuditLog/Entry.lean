import AgentWallet.AuditLog.Timestamps
import AgentWallet.Base.Framing
import AgentWallet.Base.HashChain
import AgentWallet.Base.Lines
import AgentWallet.Base.Utf8

/-!
# Entries of the audit log

`entry.rs` and `chain.rs`: an entry, the JSON line it is written as, its hash, and the reading of
one line.  The JSON encoder and decoder, SHA-256 and HMAC are parameters: `Json` carries what a
compact JSON encoder and a parser of single objects do, `Hashes` the text form of a digest.

With a hash that has no collisions, an entry is known from its hash (`entryHash_inj`) and no entry
hashes to the genesis value (`entryHash_ne_zeroBlockHash`).
-/

namespace AgentWallet.AuditLog.Entry

open Base.Framing (Sym bytes)
open Base Timestamps List

/-! ## Entries -/

inductive PolicyDecision where
  | allow
  | deny (reason : Text)
  | requireApproval

/-- The event kinds: the one the chain itself uses, and all others, whose data is in `K`. -/
inductive EventKind (K : Type) where
  | auditRotationHandoff (nextFileName : Text)
  | other (kind : K)

structure AuditEntry (K : Type) where
  ts : Text
  tool : Text
  chainId : Option Text
  argKeys : List Text
  argKeysTruncated : Option ℕ
  truncated : Bool
  envelopeHash : Option Text
  nonceId : Option Text
  policyDecision : PolicyDecision
  decisionReason : Option Text
  requestId : Text
  eventKind : EventKind K
  previousEntryHash : Text

/-- An `AuditRotationHandoff`. -/
def AuditEntry.isHandoff {K : Type} (e : AuditEntry K) : Bool :=
  match e.eventKind with
  | .auditRotationHandoff _ => true
  | .other _ => false

/-- `AuditEntry::new_rotation_handoff` -/
def newRotationHandoff (K : Type) (nextFileName requestId : Text) (nowMs : ℕ) : AuditEntry K where
  ts := iso8601Utc nowMs
  tool := Framing.utf8 "audit.rotation_handoff_to"
  chainId := none
  argKeys := []
  argKeysTruncated := none
  truncated := false
  envelopeHash := none
  nonceId := none
  policyDecision := .allow
  decisionReason := none
  requestId := requestId
  eventKind := .auditRotationHandoff nextFileName
  previousEntryHash := []

/-! ## The code outside the repository -/

/-- The JSON encoder and the decoder of single entries. -/
structure Json (K : Type) where
  /-- `serde_json::to_vec` -/
  toVec : AuditEntry K → Text
  /-- `serde_json::from_slice` -/
  fromSlice : Text → Option (AuditEntry K)
  fromSlice_toVec : ∀ e, fromSlice (toVec e) = some e
  /-- The encoder writes UTF-8. -/
  toVec_utf8 : ∀ e, (Utf8.decode (toVec e)).isSome = true
  /-- Control characters are escaped and nothing is indented. -/
  toVec_newline : ∀ e, (10 : UInt8) ∉ toVec e
  /-- An object ends with its closing brace. -/
  toVec_closed : ∀ e, (toVec e).getLast? = some 125
  /-- An object has an opening brace. -/
  fromSlice_brace : ∀ l e, fromSlice l = some e → (123 : UInt8) ∈ l
  /-- `serde_json::from_slice` of a value of any kind succeeds. -/
  isValue : Text → Bool
  isValue_toVec : ∀ e, isValue (toVec e) = true
  /-- Nothing but white space may follow an object. -/
  fromSlice_append : ∀ l r e e', fromSlice l = some e → fromSlice (l ++ r) = some e' → e' = e

/-- SHA-256, HMAC-SHA256 and the text `sha256:<64 lower-case hex digits>` of a digest.  Digests are
symbolic, so that hashes without collisions exist: of `hex` and `decode_hash` only the laws are
kept. -/
structure Hashes (D : Type) where
  sha256 : List (Sym D) → D
  hmac : Text → Text → D
  hashText : D → Text
  decodeHash : Text → Option D
  decodeHash_hashText : ∀ d, decodeHash (hashText d) = some d
  /-- The reader is strict: one text for each digest. -/
  hashText_of_decodeHash : ∀ s d, decodeHash s = some d → s = hashText d
  hashText_printable : ∀ d, ∀ b ∈ hashText d, 33 ≤ b ∧ b < 128

/-- The encoders and hashes a log is written with, and the name of its active file. -/
structure LogEnv (K D : Type) where
  json : Json K
  hashes : Hashes D
  stem : Text

section

variable {K D : Type} (env : LogEnv K D)

/-! ## Hashes -/

/-- The hash the very first entry names: SHA-256 of 32 zero bytes. -/
def zeroBlockHash : Text := env.hashes.hashText (env.hashes.sha256 (bytes (List.replicate 32 0)))

def canonicalJsonBody (e : AuditEntry K) : Text :=
  env.json.toVec { e with previousEntryHash := [] }

/-- SHA-256 of the body and the 32 bytes of the previous hash. -/
def computeEntryHash (body previousEntryHash : Text) : Option Text :=
  (env.hashes.decodeHash previousEntryHash).map fun p =>
    env.hashes.hashText (env.hashes.sha256 (bytes body ++ [.digest p]))

/-- The hash of an entry behind the one it names. -/
def entryHash (e : AuditEntry K) : Option Text :=
  computeEntryHash env (canonicalJsonBody env e) e.previousEntryHash

def signChainRoot (key body : Text) : Text := env.hashes.hashText (env.hashes.hmac key body)

def verifyChainRoot [DecidableEq D] (key body tag : Text) : Bool :=
  decide (env.hashes.decodeHash tag = some (env.hashes.hmac key body))

/-- The entries form a chain between two hashes. -/
def Linked (h : Text) (l : List (AuditEntry K)) (h' : Text) : Prop :=
  HashChain.Linked AuditEntry.previousEntryHash (entryHash env) h l h'

/-! ## Truncation -/

def maxArgKeys : ℕ := 64

def maxEntryBytes : ℕ := 4096

def dropArgKey (e : AuditEntry K) : AuditEntry K :=
  { e with
    argKeys := e.argKeys.dropLast
    argKeysTruncated := some (e.argKeysTruncated.getD 0 + 1)
    truncated := true }

/-- The loop of `truncate_arg_keys_if_needed`, with the number of keys left as its bound. -/
def dropUntilFits : ℕ → AuditEntry K → AuditEntry K
  | 0, e =>
    if (env.json.toVec e).length ≤ maxEntryBytes then e else { e with truncated := true }
  | n + 1, e =>
    if (env.json.toVec e).length ≤ maxEntryBytes then e else dropUntilFits n (dropArgKey e)

def truncateArgKeysIfNeeded (e : AuditEntry K) : AuditEntry K :=
  let capped :=
    if e.argKeys.length > maxArgKeys then
      { e with
        argKeys := e.argKeys.take maxArgKeys
        argKeysTruncated := some (e.argKeysTruncated.getD 0 + (e.argKeys.length - maxArgKeys))
        truncated := true }
    else e
  dropUntilFits env capped.argKeys.length capped

/-! ## Lines -/

def line (e : AuditEntry K) : Text := env.json.toVec e ++ [10]

/-- Without a line feed, and a carriage return before it. -/
def stripLineTerminator (raw : Text) : Text :=
  let l := if raw.getLast? = some 10 then raw.dropLast else raw
  if l.getLast? = some 13 then l.dropLast else l

/-- `u8::is_ascii_whitespace` -/
def isAsciiWhitespace (b : UInt8) : Bool := decide (b ∈ [9, 10, 12, 13, 32])

def scanChunk : ℕ := 4096

/-- The last line that is not blank before an offset. -/
def readLastLineBefore (content : Text) (endOffset : ℕ) : Option Text :=
  let scanEnd := min endOffset content.length
  if scanEnd = 0 then none
  else
    (Lines.scanBack false scanChunk isAsciiWhitespace 10 content (scanEnd + 1) scanEnd []).map
      stripLineTerminator

def readLine (raw : Text) : Option (AuditEntry K) := env.json.fromSlice (stripLineTerminator raw)

def parsedEntries (content : Text) : List (AuditEntry K) :=
  (Lines.rawLines 10 content).filterMap (readLine env)

end

/-! ## What a hash knows -/

section

variable {K D : Type} {env : LogEnv K D} {e e' : AuditEntry K} {t body prev : Text}

theorem toVec_injective (json : Json K) : json.toVec.Injective := by
  intro e e' h
  have he := json.fromSlice_toVec e
  rw [h, json.fromSlice_toVec e'] at he
  exact (Option.some.inj he).symm

theorem hashText_injective (hashes : Hashes D) : hashes.hashText.Injective := by
  intro d d' h
  have hd := hashes.decodeHash_hashText d
  rw [h, hashes.decodeHash_hashText d'] at hd
  exact (Option.some.inj hd).symm

theorem computeEntryHash_eq_some : computeEntryHash env body prev = some t ↔
      ∃ p, prev = env.hashes.hashText p ∧
        t = env.hashes.hashText (env.hashes.sha256 (bytes body ++ [.digest p])) := by
  unfold computeEntryHash
  rw [Option.map_eq_some_iff]
  constructor
  · rintro ⟨p, hp, rfl⟩
    exact ⟨p, env.hashes.hashText_of_decodeHash _ _ hp, rfl⟩
  · rintro ⟨p, rfl, rfl⟩
    exact ⟨p, env.hashes.decodeHash_hashText p, rfl⟩

theorem exists_digest (h : computeEntryHash env body prev = some t) :
    ∃ d, t = env.hashes.hashText d := by
  obtain ⟨p, -, rfl⟩ := computeEntryHash_eq_some.1 h
  exact ⟨_, rfl⟩

section Injective

variable (hsha : env.hashes.sha256.Injective)

include hsha

theorem entryHash_inj (e e' : AuditEntry K) (t : Text) (h : entryHash env e = some t)
    (h' : entryHash env e' = some t) : e = e' := by
  obtain ⟨p, hp, ht⟩ := computeEntryHash_eq_some.1 h
  obtain ⟨p', hp', ht'⟩ := computeEntryHash_eq_some.1 h'
  have hmsg := hsha (hashText_injective env.hashes (ht.symm.trans ht'))
  obtain ⟨hbody, hdigest⟩ := append_inj' hmsg rfl
  have hbodies := toVec_injective env.json (Framing.bytes_injective hbody)
  obtain rfl : p = p' := by simpa using hdigest
  have hprev : e.previousEntryHash = e'.previousEntryHash := hp.trans hp'.symm
  calc e = { ({ e with previousEntryHash := [] } : AuditEntry K) with
        previousEntryHash := e.previousEntryHash } := rfl
    _ = { ({ e' with previousEntryHash := [] } : AuditEntry K) with
        previousEntryHash := e'.previousEntryHash } := by rw [hbodies, hprev]
    _ = e' := rfl

theorem entryHash_ne_zeroBlockHash (e : AuditEntry K) :
    entryHash env e ≠ some (zeroBlockHash env) := by
  intro h
  obtain ⟨p, -, ht⟩ := computeEntryHash_eq_some.1 h
  have hmsg := hsha (hashText_injective env.hashes ht)
  have hlast := congrArg List.getLast? hmsg
  simp [bytes] at hlast

end Injective

/-! ## What truncation keeps -/

variable {x content l raw : Text} {endOffset : ℕ}

/-- What the chain reads of an entry is the same. -/
structure SameChainFields (e e' : AuditEntry K) : Prop where
  ts : e.ts = e'.ts
  eventKind : e.eventKind = e'.eventKind
  previousEntryHash : e.previousEntryHash = e'.previousEntryHash

theorem SameChainFields.trans {e e' e'' : AuditEntry K} (h : SameChainFields e e')
    (h' : SameChainFields e' e'') : SameChainFields e e'' :=
  ⟨h.ts.trans h'.ts, h.eventKind.trans h'.eventKind, h.previousEntryHash.trans h'.previousEntryHash⟩

theorem dropUntilFits_keeps (n : ℕ) (e : AuditEntry K) :
    SameChainFields (dropUntilFits env n e) e := by
  induction n generalizing e with
  | zero =>
    unfold dropUntilFits
    split_ifs <;> exact ⟨rfl, rfl, rfl⟩
  | succ n ih =>
    unfold dropUntilFits
    split_ifs
    · exact ⟨rfl, rfl, rfl⟩
    · exact (ih (dropArgKey e)).trans ⟨rfl, rfl, rfl⟩

theorem truncateArgKeysIfNeeded_keeps (e : AuditEntry K) :
    SameChainFields (truncateArgKeysIfNeeded env e) e := by
  unfold truncateArgKeysIfNeeded
  split_ifs
  · exact (dropUntilFits_keeps _ _).trans ⟨rfl, rfl, rfl⟩
  · exact dropUntilFits_keeps _ _

/-! ## Reading a line -/

theorem toVec_ne_nil (json : Json K) (e : AuditEntry K) : json.toVec e ≠ [] := fun h => by
  have hlast := json.toVec_closed e
  rw [h] at hlast
  cases hlast

theorem stripLineTerminator_line (e : AuditEntry K) :
    stripLineTerminator (line env e) = env.json.toVec e := by
  unfold stripLineTerminator line
  simp [env.json.toVec_closed e]

theorem readLine_line (e : AuditEntry K) : readLine env (line env e) = some e := by
  unfold readLine
  rw [stripLineTerminator_line, env.json.fromSlice_toVec]

section

variable (hne : x ≠ []) (hlast : isAsciiWhitespace (x.getLast hne) = false)
include hne hlast

theorem getLast?_ne_of_not_whitespace : ∀ b ∈ [(10 : UInt8), 13], x.getLast? ≠ some b := by
  intro b hb h
  rw [List.getLast?_eq_some_getLast hne] at h
  rw [Option.some.inj h] at hlast
  revert hlast
  simp only [mem_cons, not_mem_nil, or_false] at hb
  rcases hb with rfl | rfl <;> decide

theorem stripLineTerminator_of_not_whitespace : stripLineTerminator x = x := by
  have hx := getLast?_ne_of_not_whitespace hne hlast
  unfold stripLineTerminator
  rw [if_neg (hx 10 (by simp)), if_neg (hx 13 (by simp))]

theorem exists_stripLineTerminator_append (y : Text) :
    ∃ r, stripLineTerminator (x ++ y) = x ++ r := by
  have hx := getLast?_ne_of_not_whitespace hne hlast
  have hdrop : ∀ b ∈ [(10 : UInt8), 13], ∀ z : Text, (x ++ z).getLast? = some b →
      ∃ r, (x ++ z).dropLast = x ++ r := by
    intro b hb z hz
    rcases eq_nil_or_concat' z with rfl | ⟨z, c, rfl⟩
    · rw [append_nil] at hz
      exact absurd hz (hx b hb)
    · exact ⟨z, by rw [← append_assoc, dropLast_concat]⟩
  have hfirst : ∃ z, (if (x ++ y).getLast? = some 10 then (x ++ y).dropLast else x ++ y) =
      x ++ z := by
    split_ifs with h
    · exact hdrop 10 (by simp) y h
    · exact ⟨y, rfl⟩
  obtain ⟨z, hz⟩ := hfirst
  unfold stripLineTerminator
  simp only [hz]
  split_ifs with h
  · exact hdrop 13 (by simp) z h
  · exact ⟨z, rfl⟩

end

/-- **The backward scan finds the last line.** -/
theorem readLastLineBefore_eq (content : Text) (endOffset : ℕ) :
    readLastLineBefore content endOffset =
      (Lines.lastLine isAsciiWhitespace 10 (content.take endOffset)).map stripLineTerminator := by
  have htake : content.take (min endOffset content.length) = content.take endOffset := by
    rw [take_eq_take_iff]
    omega
  unfold readLastLineBefore
  rcases Nat.eq_zero_or_pos (min endOffset content.length) with hzero | hpos
  · have hnil : content.take endOffset = [] := by
      rw [← htake, hzero, take_zero]
    simp only [hzero, hnil]
    rfl
  · have hne : min endOffset content.length ≠ 0 := by omega
    simp only [if_neg hne]
    rw [Lines.scanBack_eq (by decide) (Nat.lt_succ_self _) hpos rfl (by simp) (by simp),
      append_nil, htake]

theorem rawLines_lines (es : List (AuditEntry K)) :
    Lines.rawLines 10 (es.flatMap (line env)) = es.map (line env) :=
  Lines.rawLines_flatMap (f := env.json.toVec) env.json.toVec_newline es

theorem parsedEntries_lines (es : List (AuditEntry K)) :
    parsedEntries env (es.flatMap (line env)) = es := by
  unfold parsedEntries
  rw [rawLines_lines, filterMap_map]
  have hread : readLine env ∘ line env = some := funext readLine_line
  rw [hread, filterMap_some]

theorem isAsciiWhitespace_getLast_toVec (e : AuditEntry K) (h : env.json.toVec e ≠ []) :
    isAsciiWhitespace ((env.json.toVec e).getLast h) = false := by
  have hlast := env.json.toVec_closed e
  rw [List.getLast?_eq_some_getLast h] at hlast
  rw [Option.some.inj hlast]
  decide

theorem readLastLineBefore_lines (hcontent : Lines.Terminated 10 content) (e : AuditEntry K)
    (hend : (content ++ line env e).length ≤ endOffset) :
    readLastLineBefore (content ++ line env e) endOffset = some (env.json.toVec e) := by
  have hne := toVec_ne_nil env.json e
  rw [readLastLineBefore_eq, take_of_length_le hend]
  unfold line
  rw [Lines.lastLine_snoc hcontent (by decide) (env.json.toVec_newline e) hne
    (isAsciiWhitespace_getLast_toVec e hne)]
  rw [Option.map_some, stripLineTerminator_of_not_whitespace hne
    (isAsciiWhitespace_getLast_toVec e hne)]

theorem fromSlice_eq_none_of_isBlank {s : List Char} (hl : Utf8.decode l = some s)
    (hs : Utf8.isBlank s = true) : env.json.fromSlice l = none := by
  rw [Option.eq_none_iff_forall_ne_some]
  intro e he
  have hbrace := env.json.fromSlice_brace l e he
  rw [← Utf8.encode_of_decode hl] at hbrace
  exact Utf8.notMem_of_isBlank (by decide) hs hbrace

theorem stripLineTerminator_shortens (raw : Text) : stripLineTerminator raw <+: raw := by
  unfold stripLineTerminator
  dsimp only
  split_ifs
  · have hfront := dropLast_prefix raw.dropLast
    exact hfront.trans <| dropLast_prefix raw
  · exact dropLast_prefix raw
  · exact dropLast_prefix raw
  · exact prefix_refl raw

theorem isAsciiWhitespace_of_strip (h : (stripLineTerminator raw).all isAsciiWhitespace = true) :
    ∀ b ∈ raw, isAsciiWhitespace b = true := by
  have hdrop : ∀ (l : Text) (c : UInt8), isAsciiWhitespace c = true →
      (∀ b ∈ if l.getLast? = some c then l.dropLast else l, isAsciiWhitespace b = true) →
      ∀ b ∈ l, isAsciiWhitespace b = true := by
    intro l c hc hl
    split_ifs at hl with hlast
    · intro b hb
      rw [← dropLast_append_getLast? c hlast] at hb
      rcases mem_append.1 hb with hb | hb
      · exact hl b hb
      · rw [mem_singleton.1 hb]
        exact hc
    · exact hl
  refine hdrop raw 10 (by decide) (hdrop _ 13 (by decide) fun b hb => ?_)
  exact all_eq_true.1 h b hb

theorem readLine_eq_none_of_blank (h : ∀ b ∈ raw, isAsciiWhitespace b = true) :
    readLine env raw = none := by
  rw [Option.eq_none_iff_forall_ne_some]
  intro e he
  have hbrace := (stripLineTerminator_shortens raw).subset (env.json.fromSlice_brace _ e he)
  exact absurd (h 123 hbrace) (by decide)

/-- **The entry the backward scan finds is one of the file**, and the last one when the scan begins
at the end. -/
theorem parsedEntries_of_readLastLineBefore
    (hlines : ∀ raw ∈ Lines.rawLines 10 content, (123 : UInt8) ∈ stripLineTerminator raw →
      ∃ e, readLine env raw = some e)
    (hline : readLastLineBefore content endOffset = some l) (he : env.json.fromSlice l = some e) :
    ∃ front rest, parsedEntries env content = front ++ e :: rest ∧
      (content.length ≤ endOffset → rest = []) := by
  rw [readLastLineBefore_eq, Option.map_eq_some_iff] at hline
  obtain ⟨x, hx, rfl⟩ := hline
  obtain ⟨before, after, hsplit, hbefore, hfeed, hafter, hne, hlast⟩ :=
    Lines.lastLine_eq_some (by decide) hx
  rw [stripLineTerminator_of_not_whitespace hne hlast] at he
  -- the raw line that begins where the scan stopped
  have hcontent : content = before ++ (x ++ (after ++ content.drop endOffset)) := by
    rw [← append_assoc x, ← append_assoc before, ← hsplit, take_append_drop]
  obtain ⟨y, rs, hraw⟩ := Lines.rawLines_of_line_start
    hbefore hfeed hne
  rw [← hcontent] at hraw
  obtain ⟨r, hstrip⟩ := exists_stripLineTerminator_append hne hlast y
  have hbrace : (123 : UInt8) ∈ stripLineTerminator (x ++ y) := by
    rw [hstrip]
    exact mem_append_left r (env.json.fromSlice_brace x e he)
  obtain ⟨e', he'⟩ := hlines (x ++ y) (by rw [hraw]; simp) hbrace
  have hread := he'
  unfold readLine at he'
  rw [hstrip] at he'
  rw [env.json.fromSlice_append x r e e' he he'] at hread
  refine ⟨parsedEntries env before, rs.filterMap (readLine env), ?_, fun hend => ?_⟩
  · unfold parsedEntries
    rw [hraw, filterMap_append, filterMap_cons_some hread]
  · -- behind the last line there is white space only
    have hflat : (Lines.rawLines 10 content).flatten = content := Lines.flatten_rawLines
    rw [hraw, flatten_append, flatten_cons, Lines.flatten_rawLines, append_assoc,
      hcontent, drop_eq_nil_of_le hend, append_nil] at hflat
    have hrest : y ++ rs.flatten = after :=
      append_cancel_left (append_cancel_left hflat)
    refine filterMap_eq_nil_iff.2 fun raw hmem => readLine_eq_none_of_blank fun b hb => ?_
    refine hafter b ?_
    rw [← hrest]
    exact mem_append_right _ (mem_flatten.2 ⟨raw, hmem, hb⟩)

end

end AgentWallet.AuditLog.Entry
