import AgentWallet.AuditLog.Entry

/-!
# A plain log

An encoder and a hash for which the laws of `Json` and `Hashes` hold: an entry is written as its
fields between braces, each spelled with two letters a byte, and the hash of a message is the
message itself, so that it has no collisions (`plainHashes_injective`).  The statements about logs
that take an encoder and a hash as parameters are not about nothing.
-/

namespace AgentWallet.AuditLog.PlainLog

open Base List
open Base.Framing (Sym)
open Timestamps Entry

variable {K : Type} {c : UInt8} {t x y : Text} {e : AuditEntry K}

/-! ## Spelling -/

def letters (b : UInt8) : Text := [97 + b / 16, 97 + b % 16]

def spell (t : Text) : Text := t.flatMap letters

def unspell : Text → Option Text
  | [] => some []
  | [_] => none
  | a :: b :: t => (unspell t).map fun t => (16 * (a - 97) + (b - 97)) :: t

theorem toNat_letters (b : UInt8) :
    (97 + b / 16).toNat = 97 + b.toNat / 16 ∧ (97 + b % 16).toNat = 97 + b.toNat % 16 := by
  have hb := b.toNat_lt
  have hdiv : (b / 16).toNat = b.toNat / 16 := rfl
  have hmod : (b % 16).toNat = b.toNat % 16 := rfl
  have h97 : (97 : UInt8).toNat = 97 := rfl
  rw [UInt8.toNat_add, UInt8.toNat_add, hmod]
  omega

theorem letters_spec (b : UInt8) :
    16 * ((97 + b / 16) - 97) + ((97 + b % 16) - 97) = b ∧ ∀ c ∈ letters b, 97 ≤ c ∧ c < 113 := by
  have hb := b.toNat_lt
  obtain ⟨hhigh, hlow⟩ := toNat_letters b
  have h97 : (97 : UInt8).toNat = 97 := rfl
  have h113 : (113 : UInt8).toNat = 113 := rfl
  have h16 : (16 : UInt8).toNat = 16 := rfl
  constructor
  · rw [← UInt8.toNat_inj, UInt8.toNat_add, UInt8.toNat_mul, UInt8.toNat_sub, UInt8.toNat_sub, h16]
    omega
  · intro c hc
    rw [UInt8.le_iff_toNat_le, UInt8.lt_iff_toNat_lt, h97]
    simp only [letters, mem_cons, not_mem_nil, or_false] at hc
    rcases hc with rfl | rfl
    · omega
    · omega

theorem unspell_spell (t : Text) : unspell (spell t) = some t := by
  induction t with
  | nil => rfl
  | cons b t ih =>
    have hcons : spell (b :: t) = (97 + b / 16) :: (97 + b % 16) :: spell t := rfl
    rw [hcons, unspell, ih, (letters_spec b).1]
    rfl

theorem mem_spell (h : c ∈ spell t) : 97 ≤ c ∧ c < 113 := by
  obtain ⟨b, -, hc⟩ := mem_flatMap.1 h
  exact (letters_spec b).2 c hc

theorem printable_spell (h : c ∈ spell t) : 33 ≤ c ∧ c < 128 := by
  have hletter : ∀ n < 113, 97 ≤ n → 33 ≤ UInt8.ofNat n ∧ UInt8.ofNat n < 128 := by decide
  have hspell := mem_spell h
  have hprintable := hletter c.toNat hspell.2 hspell.1
  rwa [UInt8.ofNat_toNat] at hprintable

theorem notMem_spell (hc : c < 97 ∨ 113 ≤ c) : c ∉ spell t := by
  intro h
  have hspell := mem_spell h
  rcases hc with hc | hc
  · exact absurd hspell.1 (by simpa using hc)
  · exact absurd hspell.2 (by simpa using hc)

/-! ## Entries -/

/-- The kinds of events that are not told apart, as numbers. -/
structure Numbering (K : Type) where
  code : K → ℕ
  decode : ℕ → Option K
  decode_code : ∀ k, decode (code k) = some k

variable {N : Numbering K}

def optionText : Option Text → Text
  | none => []
  | some t => 1 :: t

def textOption : Text → Option Text
  | [] => none
  | _ :: t => some t

def countText : Option ℕ → Text
  | none => []
  | some n => List.replicate (n + 1) 1

def textCount : Text → Option ℕ
  | [] => none
  | _ :: t => some t.length

def boolText (b : Bool) : Text := if b then [1] else []

def decisionText : PolicyDecision → Text
  | .allow => []
  | .deny reason => 1 :: reason
  | .requireApproval => [0]

def textDecision : Text → PolicyDecision
  | [] => .allow
  | b :: t => if b = 1 then .deny t else .requireApproval

def kindText (N : Numbering K) : EventKind K → Text
  | .auditRotationHandoff nextFileName => 0 :: nextFileName
  | .other kind => List.replicate (N.code kind + 1) 1

def textKind (N : Numbering K) : Text → Option (EventKind K)
  | [] => none
  | b :: t => if b = 0 then some (.auditRotationHandoff t) else (N.decode t.length).map .other

/-- The fields of an entry, the argument keys last. -/
def fields (N : Numbering K) (e : AuditEntry K) : List Text :=
  e.ts :: e.tool :: optionText e.chainId :: countText e.argKeysTruncated :: boolText e.truncated ::
    optionText e.envelopeHash :: optionText e.nonceId :: decisionText e.policyDecision ::
    optionText e.decisionReason :: e.requestId :: kindText N e.eventKind :: e.previousEntryHash ::
    e.argKeys

def ofFields (N : Numbering K) : List Text → Option (AuditEntry K)
  | ts :: tool :: chainId :: argKeysTruncated :: truncated :: envelopeHash :: nonceId ::
      policyDecision :: decisionReason :: requestId :: eventKind :: previousEntryHash :: argKeys =>
    (textKind N eventKind).map fun kind =>
      { ts := ts
        tool := tool
        chainId := textOption chainId
        argKeys := argKeys
        argKeysTruncated := textCount argKeysTruncated
        truncated := !truncated.isEmpty
        envelopeHash := textOption envelopeHash
        nonceId := textOption nonceId
        policyDecision := textDecision policyDecision
        decisionReason := textOption decisionReason
        requestId := requestId
        eventKind := kind
        previousEntryHash := previousEntryHash }
  | _ => none

theorem textOption_optionText (t : Option Text) : textOption (optionText t) = t := by
  cases t <;> rfl

theorem ofFields_fields (e : AuditEntry K) : ofFields N (fields N e) = some e := by
  have hcount : ∀ n : Option ℕ, textCount (countText n) = n := fun n => by
    cases n with
    | none => rfl
    | some n => simp [countText, textCount, replicate_succ]
  have hbool : ∀ b : Bool, (!(boolText b).isEmpty) = b := by decide
  have hdecision : ∀ d : PolicyDecision, textDecision (decisionText d) = d := fun d => by
    cases d <;> rfl
  have hkind : ∀ kind : EventKind K, textKind N (kindText N kind) = some kind := fun kind => by
    cases kind with
    | auditRotationHandoff name => rfl
    | other kind => simp [kindText, textKind, replicate_succ, N.decode_code]
  simp [fields, ofFields, textOption_optionText, hcount, hbool, hdecision, hkind]

def body (N : Numbering K) (e : AuditEntry K) : Text :=
  (fields N e).flatMap fun t => spell t ++ [44]

def plainToVec (N : Numbering K) (e : AuditEntry K) : Text := 123 :: (body N e ++ [125])

def readBody (N : Numbering K) (t : Text) : Option (AuditEntry K) :=
  ofFields N ((Lines.rawLines 44 t).filterMap fun raw => unspell raw.dropLast)

/-- The reader accepts what the encoder writes and nothing else. -/
def plainFromSlice (N : Numbering K) (l : Text) : Option (AuditEntry K) :=
  (readBody N l.tail.dropLast).filter fun e => decide (plainToVec N e = l)

theorem readBody_body (e : AuditEntry K) : readBody N (body N e) = some e := by
  have hlines : Lines.rawLines 44 (body N e) = (fields N e).map fun t => spell t ++ [44] :=
    Lines.rawLines_flatMap (fun _ => notMem_spell (by decide)) (fields N e)
  have hfields : ((fields N e).map fun t => spell t ++ [44]).filterMap
      (fun raw => unspell raw.dropLast) = fields N e := by
    rw [filterMap_map]
    have hread : (fun raw => unspell raw.dropLast) ∘ (fun t => spell t ++ [44]) = some := by
      funext t
      simp [unspell_spell]
    rw [hread, filterMap_some]
  unfold readBody
  rw [hlines, hfields, ofFields_fields]

theorem plainFromSlice_plainToVec (e : AuditEntry K) :
    plainFromSlice N (plainToVec N e) = some e := by
  have hbody : (plainToVec N e).tail.dropLast = body N e := by simp [plainToVec]
  unfold plainFromSlice
  rw [hbody, readBody_body]
  simp [Option.filter]

theorem plainToVec_of_fromSlice {l : Text} (h : plainFromSlice N l = some e) :
    plainToVec N e = l := by
  exact of_decide_eq_true (Option.filter_eq_some_iff.1 h).2

theorem notMem_body (hne : c ≠ 44) (hc : c < 97 ∨ 113 ≤ c) : c ∉ body N e := by
  intro h
  obtain ⟨t, -, hmem⟩ := mem_flatMap.1 h
  rcases mem_append.1 hmem with hmem | hmem
  · exact notMem_spell hc hmem
  · exact hne (mem_singleton.1 hmem)

theorem printable_plainToVec (e : AuditEntry K) : ∀ c ∈ plainToVec N e, 33 ≤ c ∧ c < 128 := by
  intro c hc
  simp only [plainToVec, mem_cons, mem_append, not_mem_nil, or_false] at hc
  rcases hc with rfl | hc | rfl
  · decide
  · obtain ⟨t, -, hmem⟩ := mem_flatMap.1 hc
    rcases mem_append.1 hmem with hmem | hmem
    · exact printable_spell hmem
    · rw [mem_singleton.1 hmem]
      decide
  · decide

theorem eq_of_plainToVec_append {e' : AuditEntry K} {r : Text}
    (h : plainToVec N e ++ r = plainToVec N e') : e' = e := by
  have hr : r = [] := by
    rcases eq_nil_or_concat' r with rfl | ⟨r', b, rfl⟩
    · rfl
    · exfalso
      have hfront : plainToVec N e ++ r' = 123 :: body N e' := by
        have hsnoc : (plainToVec N e ++ r') ++ [b] = (123 :: body N e') ++ [125] := by
          rw [append_assoc, h]
          rfl
        exact (append_inj' hsnoc rfl).1
      have hmem : (125 : UInt8) ∈ 123 :: body N e' := by
        rw [← hfront]
        simp [plainToVec]
      rcases mem_cons.1 hmem with hmem | hmem
      · exact absurd hmem (by decide)
      · exact notMem_body (by decide) (by decide) hmem
  rw [hr, append_nil] at h
  have hread := plainFromSlice_plainToVec (N := N) e
  rw [h, plainFromSlice_plainToVec] at hread
  exact Option.some.inj hread

def plainJson (N : Numbering K) : Json K where
  toVec := plainToVec N
  fromSlice := plainFromSlice N
  fromSlice_toVec := plainFromSlice_plainToVec
  toVec_utf8 e := by
    rw [← Utf8.encode_map_char (printable_plainToVec e), Utf8.decode_encode]
    rfl
  toVec_newline e h := absurd (printable_plainToVec e 10 h).1 (by decide)
  toVec_closed e := by
    unfold plainToVec
    rw [← cons_append, List.getLast?_concat]
  fromSlice_brace l e h := by
    rw [← plainToVec_of_fromSlice h]
    exact mem_cons_self
  isValue l := (plainFromSlice N l).isSome
  isValue_toVec e := by rw [plainFromSlice_plainToVec]; rfl
  fromSlice_append l r e e' h h' := by
    refine eq_of_plainToVec_append (N := N) (r := r) ?_
    rw [plainToVec_of_fromSlice h, plainToVec_of_fromSlice h']

/-! ## Hashes -/

/-- A symbol of a message, with an end that no other symbol has. -/
def symbol : Sym Text → Text
  | .byte b => [0, b]
  | .digest d => 1 :: (d.flatMap (fun b => [0, b]) ++ [1])

theorem pairs_append_inj {d d' : Text}
    (h : d.flatMap (fun b => [0, b]) ++ (1 :: x) = d'.flatMap (fun b => [0, b]) ++ (1 :: y)) :
    d = d' ∧ x = y := by
  induction d generalizing d' with
  | nil =>
    cases d' with
    | nil => simpa using h
    | cons b d' => simp at h
  | cons b d ih =>
    cases d' with
    | nil => simp at h
    | cons b' d' =>
      simp only [flatMap_cons, cons_append, List.cons.injEq, true_and] at h
      obtain ⟨rfl, rfl⟩ := ih h.2
      exact ⟨by rw [h.1], rfl⟩

theorem symbol_append_inj {s s' : Sym Text} (h : symbol s ++ x = symbol s' ++ y) :
    s = s' ∧ x = y := by
  cases s with
  | byte b =>
    cases s' with
    | byte b' => simpa [symbol] using h
    | digest d => simp [symbol] at h
  | digest d =>
    cases s' with
    | byte b' => simp [symbol] at h
    | digest d' =>
      have hpairs : d.flatMap (fun b => [0, b]) ++ (1 :: x) =
          d'.flatMap (fun b => [0, b]) ++ (1 :: y) := by simpa [symbol] using h
      obtain ⟨rfl, rfl⟩ := pairs_append_inj hpairs
      exact ⟨rfl, rfl⟩

def plainHashes : Hashes Text where
  sha256 message := message.flatMap symbol
  hmac key message := key ++ [0] ++ message
  hashText := spell
  decodeHash t := (unspell t).filter fun d => decide (spell d = t)
  decodeHash_hashText d := by
    rw [unspell_spell]
    simp [Option.filter]
  hashText_of_decodeHash t d h := (of_decide_eq_true (Option.filter_eq_some_iff.1 h).2).symm
  hashText_printable _ _ h := printable_spell h

theorem plainHashes_injective : plainHashes.sha256.Injective := by
  intro m
  induction m with
  | nil =>
    intro m' h
    cases m' with
    | nil => rfl
    | cons s m' => cases s <;> cases h
  | cons s m ih =>
    intro m' h
    cases m' with
    | nil => cases s <;> cases h
    | cons s' m' =>
      obtain ⟨rfl, hm⟩ := symbol_append_inj h
      rw [ih hm]

def logOf (N : Numbering K) : LogEnv K Text where
  json := plainJson N
  hashes := plainHashes
  stem := Framing.utf8 "alice.jsonl"

def plainLog : LogEnv Unit Text := logOf ⟨fun _ => 0, fun _ => some (), fun _ => rfl⟩

/-- A log for the events of any kind that can be numbered. -/
noncomputable def codedLog (K : Type) [Countable K] : LogEnv K Text :=
  letI := Encodable.ofCountable K
  logOf ⟨Encodable.encode, Encodable.decode, Encodable.encodek⟩

/-- An entry with nothing but its event and its link. -/
def bareEntry (kind : EventKind K) (previousEntryHash : Text) : AuditEntry K where
  ts := []
  tool := []
  chainId := none
  argKeys := []
  argKeysTruncated := none
  truncated := false
  envelopeHash := none
  nonceId := none
  policyDecision := .allow
  decisionReason := none
  requestId := []
  eventKind := kind
  previousEntryHash := previousEntryHash

end AgentWallet.AuditLog.PlainLog
