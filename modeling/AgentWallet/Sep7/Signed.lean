import AgentWallet.Sep7.Parse

/-!
# What the signature of a SEP-7 request covers

`verify.rs`: the signature is checked over the text before the first `&signature=` (or
`?signature=`), whatever stands behind it, while the parser reads the whole query.
-/

namespace AgentWallet.Sep7.Signed

open Base Parse List Base.Checks

variable {E : Externals} {name : String}

/-! ## Verification -/

/-- The code outside the crate that the verification uses. -/
structure Verifier extends Externals where
  /-- `URI_REQUEST_SIGNING_KEY` of a `stellar.toml`; fails when the text is none. -/
  uriRequestSigningKey : String → Except Unit (Option Text)
  /-- `VerifyingKey::from_bytes` succeeds. -/
  isVerifyingKey : List UInt8 → Bool
  /-- URL-safe base64 without padding, then standard base64. -/
  base64 : Text → Option (List UInt8)
  verify : List UInt8 → List UInt8 → List UInt8 → Bool

inductive SignatureStatus where
  | verified
  | failed
  | missingRequired
  | absent
deriving DecidableEq

def buildSignaturePayload (uri : Text) : List UInt8 :=
  List.replicate 35 0 ++ [4] ++ Utf8.encode "stellar.sep.7 - URI Scheme".toList ++
    Utf8.encode (stripSignatureParam uri)

def authorityHint (originDomain : Text) : String :=
  String.ofList originDomain ++ "/.well-known/stellar.toml"

variable (V : Verifier)

/-- The key of a `stellar.toml`. -/
def signingKey (originDomain : Text) (tomlBody : String) : Except Sep7Error (List UInt8) :=
  match V.uriRequestSigningKey tomlBody with
  | .error _ => .error (.tomlFetchFailed (authorityHint originDomain))
  | .ok none => .error .signingKeyNotInToml
  | .ok (some key) =>
    match V.account key with
    | none =>
      .error (.signatureVerificationFailed
        "URI_REQUEST_SIGNING_KEY in stellar.toml is not a valid G-strkey")
    | some bytes =>
      if V.isVerifyingKey bytes then .ok bytes
      else
        .error (.signatureVerificationFailed
          "URI_REQUEST_SIGNING_KEY could not be decoded as an ed25519 public key")

def decodeSignature (signatureB64 : Text) : Except Sep7Error (List UInt8) :=
  match V.base64 signatureB64 with
  | none => .error (.signatureVerificationFailed "signature is not valid base64")
  | some bytes =>
    if bytes.length = 64 then .ok bytes
    else
      .error (.signatureVerificationFailed
        "signature must be exactly 64 bytes after base64 decode")

def verifyAgainstTomlBody (uri originDomain : Text) (signatureB64 : Option Text)
    (tomlBody : String) : Except Sep7Error SignatureStatus :=
  match signatureB64 with
  | none => .ok .missingRequired
  | some sig => do
    let key ← signingKey V originDomain tomlBody
    let bytes ← decodeSignature V sig
    .ok (if V.verify key (buildSignaturePayload uri) bytes then .verified else .failed)

/-- `fetched` is the `stellar.toml` of the domain, when it could be fetched. -/
def verifyOriginSignature (fetched : Option String) (uri : Text)
    (originDomain signatureB64 : Option Text) : Except Sep7Error SignatureStatus :=
  match originDomain with
  | none => .ok .absent
  | some domain =>
    if signatureB64 = none then .ok .missingRequired
    else
      match fetched with
      | none => .error (.tomlFetchFailed (authorityHint domain))
      | some body => verifyAgainstTomlBody V uri domain signatureB64 body

def parseAndVerifyUri (fetched : Option String) (uri : Text) :
    Except Sep7Error (Sep7Request × SignatureStatus) := do
  let request ← parseSep7Uri V.toExternals uri
  let status ← verifyOriginSignature V fetched uri request.originDomain request.signatureRaw
  .ok (request, status)

/-- The request is accepted with a good signature. -/
def Accepts (tomlBody : String) (uri : Text) (request : Sep7Request) : Prop :=
  parseAndVerifyUri V (some tomlBody) uri = .ok (request, .verified)

/-! ## What is covered -/

def query (uri : Text) : Text := (splitQuery (uri.drop scheme.length)).2

def segments (uri : Text) : List Text := Split.splitOn '&' (query uri)

/-- The number of segments that lie whole within the signed text. -/
def coveredCount (uri : Text) : ℕ :=
  (Split.covered ((stripSignatureParam uri).length - (uri.length - (query uri).length))
    (segments uri)).length

def decodeSegments (segs : List Text) : Params :=
  (segs.filter fun pair => !pair.isEmpty).filterMap fun pair => (decodePair pair).toOption

/-- The parameters of the segments that lie whole within the signed text. -/
def coveredParams (uri : Text) : Params := decodeSegments ((segments uri).take (coveredCount uri))

/-- The parameters of all other segments. -/
def paramsOutside (uri : Text) : Params := decodeSegments ((segments uri).drop (coveredCount uri))

/-- The parameters behind the segments that both signatures cover. -/
def paramsBehind (uri other : Text) : Params :=
  decodeSegments ((segments uri).drop (min (coveredCount uri) (coveredCount other)))

variable {V} {tomlBody : String} {uri uri' : Text} {request request' : Sep7Request}
  {params params' : Params}

/-! ## The query -/

theorem insertPairs_eq : ∀ {pairs : List Text} {ps params : Params},
    insertPairs E ps pairs = .ok params → (ps.map Prod.fst).Nodup →
      params = ps ++ pairs.filterMap (fun pair => (decodePair pair).toOption) ∧
        (params.map Prod.fst).Nodup
  | [], ps, params, h, hnodup => by
    obtain rfl := Except.ok.inj h
    exact ⟨(append_nil _).symm, hnodup⟩
  | pair :: pairs, ps, params, h, hnodup => by
    unfold insertPairs at h
    rcases hinsert : insertPair E ps pair with e | ps'
    · rw [hinsert] at h
      cases h
    rw [hinsert] at h
    unfold insertPair at hinsert
    rcases hdecode : decodePair pair with e | ⟨key, value⟩
    · rw [hdecode] at hinsert
      cases hinsert
    rw [hdecode] at hinsert
    dsimp only at hinsert
    split_ifs at hinsert with hmem
    obtain rfl := Except.ok.inj hinsert
    have hnodup' : ((ps ++ [(key, value)]).map Prod.fst).Nodup := by
      rw [map_append]
      refine nodup_append.2 ⟨hnodup, nodup_singleton _, fun a ha b hb heq => ?_⟩
      rw [map_singleton, mem_singleton] at hb
      rw [heq, hb] at ha
      exact hmem ha
    obtain ⟨heq, hkeys⟩ := insertPairs_eq h hnodup'
    refine ⟨?_, hkeys⟩
    rw [heq, append_assoc, filterMap_cons, hdecode]
    rfl

/-- **The parameters are those of the segments**, each name once. -/
theorem params_of_parse {q : Text} (h : parseQueryParams E q = .ok params) :
    params = decodeSegments (Split.splitOn '&' q) ∧ (params.map Prod.fst).Nodup := by
  obtain ⟨heq, hnodup⟩ := insertPairs_eq h nodup_nil
  exact ⟨by rw [heq]; rfl, hnodup⟩

theorem decodeSegments_append (a b : List Text) :
    decodeSegments (a ++ b) = decodeSegments a ++ decodeSegments b := by
  unfold decodeSegments
  rw [filter_append, filterMap_append]

theorem get_append (a b : Params) (name : String) :
    Params.get (a ++ b) name = (a.get name).or (b.get name) := lookup_append

theorem get_eq_none_of_mem {a b : Params} {v : Text} (hnodup : ((a ++ b).map Prod.fst).Nodup)
    (ha : a.get name = some v) : b.get name = none := by
  rw [map_append] at hnodup
  have hkey : name.toList ∈ a.map Prod.fst := by
    obtain ⟨l₁, l₂, heq, -⟩ := lookup_eq_some_iff.1 ha
    rw [heq]
    simp
  refine lookup_eq_none_iff.2 fun p hp => ?_
  rw [bne_iff_ne]
  exact fun heq => (nodup_append.1 hnodup).2.2 _ hkey _ (mem_map_of_mem hp) heq

theorem read_append_iff {β : Type} {front back back' : Params} (f : Text → β)
    (hnodup : ((front ++ back).map Prod.fst).Nodup)
    (hnodup' : ((front ++ back').map Prod.fst).Nodup) :
    (Params.get (front ++ back) name).map f = (Params.get (front ++ back') name).map f ↔
      (back.get name).map f = (back'.get name).map f := by
  rw [get_append, get_append]
  rcases hfront : front.get name with _ | v
  · rfl
  · rw [get_eq_none_of_mem hnodup hfront, get_eq_none_of_mem hnodup' hfront]
    exact ⟨fun _ => rfl, fun _ => rfl⟩

/-! ## The request -/

/-- Parameters that read the same under every name. -/
def ReadSame (E : Externals) (names : List String) (params params' : Params) : Prop :=
  ∀ name ∈ names,
    (params.get name).map (readValue E name) = (params'.get name).map (readValue E name)

theorem map_readValue (hname : name ≠ "xdr") {v v' : Option Text} :
    v.map (readValue E name) = v'.map (readValue E name) ↔ v = v' := by
  have hinj : Function.Injective (readValue E name) := fun a b h => by
    unfold readValue at h
    rw [if_neg hname, if_neg hname] at h
    exact Except.ok.inj h
  exact (Option.map_injective hinj).eq_iff

theorem tx_unsigned_eq_iff {tx tx' : Sep7TxParams} (h : ReadsTx E params tx)
    (h' : ReadsTx E params' tx') : (Sep7Request.tx tx).unsigned = (Sep7Request.tx tx').unsigned ↔
      ReadSame E txNames params params' := by
  have hxdr : (params.get "xdr").map (readValue E "xdr") =
      (params'.get "xdr").map (readValue E "xdr") ↔ tx.xdrCanonical = tx'.xdrCanonical := by
    have hread : readValue E "xdr" = E.envelope := funext fun v => if_pos rfl
    rw [hread, h.xdr, h'.xdr]
    simp
  unfold ReadSame txNames
  simp (disch := decide) only [forall_mem_cons, not_mem_nil, IsEmpty.forall_iff, implies_true, hxdr,
    map_readValue]
  rw [← h.replace, ← h'.replace, ← h.callback, ← h'.callback, ← h.pubkey,
    ← h'.pubkey, ← h.chain, ← h'.chain, ← h.msg, ← h'.msg, ← h.networkPassphrase,
    ← h'.networkPassphrase, ← h.originDomain, ← h'.originDomain]
  unfold Sep7Request.unsigned
  simp

theorem pay_unsigned_eq_iff {pay pay' : Sep7PayParams} (h : ReadsPay params pay)
    (h' : ReadsPay params' pay') :
    (Sep7Request.pay pay).unsigned = (Sep7Request.pay pay').unsigned ↔
      ReadSame E payNames params params' := by
  have hmemo : pay.memoType.map MemoType.text = pay'.memoType.map MemoType.text ↔
      pay.memoType = pay'.memoType :=
    (Option.map_injective fun _ _ => MemoType.text_inj).eq_iff
  unfold ReadSame payNames
  simp (disch := decide) only [forall_mem_cons, not_mem_nil, IsEmpty.forall_iff, implies_true,
    map_readValue]
  rw [h.destination, h'.destination, ← h.amount, ← h'.amount,
    ← h.assetCode, ← h'.assetCode, ← h.assetIssuer, ← h'.assetIssuer, ← h.memo, ← h'.memo,
    h.memoType, h'.memoType, hmemo, ← h.callback, ← h'.callback, ← h.msg, ← h'.msg,
    ← h.networkPassphrase, ← h'.networkPassphrase, ← h.originDomain, ← h'.originDomain]
  unfold Sep7Request.unsigned
  simp

/-! ## Accepted URIs -/

def operation : Sep7Request → Text
  | .tx _ => "tx".toList
  | .pay _ => "pay".toList

def Reads (E : Externals) (params : Params) : Sep7Request → Prop
  | .tx tx => ReadsTx E params tx
  | .pay pay => ReadsPay params pay

/-- The signed text alone says what the request is, apart from the text of the signature. -/
def Covered (E : Externals) (uri : Text) (request : Sep7Request) : Prop :=
  ∃ signed, Reads E (coveredParams uri) signed ∧ signed.unsigned = request.unsigned

theorem unsigned_eq_iff (h : Reads E params request) (h' : Reads E params' request')
    (hop : operation request = operation request') :
    request.unsigned = request'.unsigned ↔ ReadSame E request.names params params' := by
  rcases request with tx | pay <;> rcases request' with tx' | pay'
  · exact tx_unsigned_eq_iff h h'
  · simp [operation] at hop
  · simp [operation] at hop
  · exact pay_unsigned_eq_iff h h'

/-- Parameters with the same values under the names of a request read as it, but for the
signature. -/
theorem exists_reads (h : Reads E params request)
    (hget : ∀ name ∈ request.names, params.get name = params'.get name) :
    ∃ signed, Reads E params' signed ∧ signed.unsigned = request.unsigned := by
  rcases request with tx | pay
  · have h : ReadsTx E params tx := h
    have hget : ∀ name ∈ txNames, params.get name = params'.get name := hget
    refine ⟨.tx { tx with signatureRaw := params'.get "signature" }, ⟨?_, ?_, ?_, ?_, ?_, ?_, ?_, ?_,
      rfl⟩, rfl⟩
    · exact hget "xdr" (by decide) ▸ h.xdr
    · exact h.replace.trans (hget "replace" (by decide))
    · exact h.callback.trans (hget "callback" (by decide))
    · exact h.pubkey.trans (hget "pubkey" (by decide))
    · exact h.chain.trans (hget "chain" (by decide))
    · exact h.msg.trans (hget "msg" (by decide))
    · exact h.networkPassphrase.trans (hget "network_passphrase" (by decide))
    · exact h.originDomain.trans (hget "origin_domain" (by decide))
  · have h : ReadsPay params pay := h
    have hget : ∀ name ∈ payNames, params.get name = params'.get name := hget
    refine ⟨.pay { pay with signatureRaw := params'.get "signature" }, ⟨?_, ?_, ?_, ?_, ?_, ?_, ?_,
      ?_, ?_, ?_, rfl⟩, rfl⟩
    · exact (hget "destination" (by decide)).symm.trans h.destination
    · exact h.amount.trans (hget "amount" (by decide))
    · exact h.assetCode.trans (hget "asset_code" (by decide))
    · exact h.assetIssuer.trans (hget "asset_issuer" (by decide))
    · exact h.memo.trans (hget "memo" (by decide))
    · exact (hget "memo_type" (by decide)).symm.trans h.memoType
    · exact h.callback.trans (hget "callback" (by decide))
    · exact h.msg.trans (hget "msg" (by decide))
    · exact h.networkPassphrase.trans (hget "network_passphrase" (by decide))
    · exact h.originDomain.trans (hget "origin_domain" (by decide))

theorem operation_of_unsigned (h : request.unsigned = request'.unsigned) :
    operation request = operation request' := by
  cases request <;> cases request' <;> first | rfl | cases h

/-- What an accepted URI looks like, and how its request comes from its parameters. -/
structure Parsed (E : Externals) (uri : Text) (request : Sep7Request) (params : Params) : Prop where
  uri_eq : uri = scheme ++ operation request ++ '?' :: query uri
  params_eq : params = decodeSegments (segments uri)
  nodup : (params.map Prod.fst).Nodup
  reads : Reads E params request

/-- **A request is covered exactly when no segment outside the signed text has a name it reads.** -/
theorem Parsed.covered_iff (h : Parsed E uri request params) :
    Covered E uri request ↔ ∀ name ∈ request.names, (paramsOutside uri).get name = none := by
  have hparams : params = coveredParams uri ++ paramsOutside uri := by
    rw [h.params_eq, coveredParams, paramsOutside, ← decodeSegments_append, take_append_drop]
  have hnodup := h.nodup
  have hreads := h.reads
  rw [hparams] at hnodup hreads
  constructor
  · rintro ⟨signed, hsigned, heq⟩ name hname
    have hsame := (unsigned_eq_iff hreads hsigned (operation_of_unsigned heq).symm).1 heq.symm
    have hread := hsame name hname
    rw [get_append] at hread
    rcases hfront : (coveredParams uri).get name with _ | v
    · rw [hfront, Option.none_or, Option.map_none, Option.map_eq_none_iff] at hread
      exact hread
    · exact get_eq_none_of_mem hnodup hfront
  · intro hnone
    refine exists_reads hreads fun name hname => ?_
    rw [get_append, hnone name hname, Option.or_none]

theorem parsed_of_accepts (h : Accepts V tomlBody uri request) :
    ∃ params, Parsed V.toExternals uri request params := by
  obtain ⟨r, hparse, h⟩ := bind_eq_ok_iff.1 h
  obtain ⟨status, hstatus, h⟩ := bind_eq_ok_iff.1 h
  obtain ⟨rfl, rfl⟩ := Prod.mk.inj (Except.ok.inj h)
  have hsignature : r.signatureRaw ≠ none := by
    intro hnone
    unfold verifyOriginSignature at hstatus
    split at hstatus
    · cases hstatus
    · rw [if_pos hnone] at hstatus
      cases hstatus
  unfold parseSep7Uri at hparse
  split at hparse
  · cases hparse
  rename_i afterScheme hscheme
  unfold stripScheme at hscheme
  split_ifs at hscheme with hstart
  obtain rfl := Option.some.inj hscheme
  have huri : uri = scheme ++ uri.drop scheme.length := by
    have hstart' : scheme <+: uri := by simpa using hstart
    obtain ⟨rest, rfl⟩ := hstart'
    rw [drop_left' rfl]
  split_ifs at hparse
  obtain ⟨params, hparams, hoperation⟩ := bind_eq_ok_iff.1 hparse
  obtain ⟨hdecoded, hnodup⟩ := params_of_parse hparams
  have hget : ∀ op : Text, (splitQuery (uri.drop scheme.length)).1 = op →
      params.get "signature" ≠ none → uri = scheme ++ op ++ '?' :: query uri := by
    intro op hop hsig
    unfold query
    unfold splitQuery at hop hdecoded ⊢
    rcases hsplit : Split.splitOnce '?' (uri.drop scheme.length) with _ | ⟨a, b⟩
    · rw [hsplit] at hdecoded
      exact absurd (by rw [hdecoded]; rfl) hsig
    · rw [hsplit] at hop
      obtain ⟨heq, -⟩ := Split.splitOnce_eq_some hsplit
      obtain rfl : a = op := hop
      rw [append_assoc, Option.getD_some, ← heq]
      exact huri
  unfold parseOperation at hoperation
  split_ifs at hoperation with htx hpay
  · rcases hresult : parseTxParams V.toExternals params with e | tx
    · rw [hresult] at hoperation
      cases hoperation
    · rw [hresult] at hoperation
      obtain rfl := Except.ok.inj hoperation
      have hreads := readsTx_of_parse hresult
      refine ⟨params, hget _ htx ?_, hdecoded, hnodup, hreads⟩
      rw [← hreads.signature]
      exact hsignature
  · rcases hresult : parsePayParams V.toExternals params with e | pay
    · rw [hresult] at hoperation
      cases hoperation
    · rw [hresult] at hoperation
      obtain rfl := Except.ok.inj hoperation
      have hreads := readsPay_of_parse hresult
      refine ⟨params, hget _ hpay ?_, hdecoded, hnodup, hreads⟩
      rw [← hreads.signature]
      exact hsignature

/-! ## The signed text -/

theorem strip_eq_of_payload (h : buildSignaturePayload uri = buildSignaturePayload uri') :
    stripSignatureParam uri = stripSignatureParam uri' := by
  have hencode := append_cancel_left h
  have hdecode := Utf8.decode_encode (stripSignatureParam uri)
  rw [hencode, Utf8.decode_encode] at hdecode
  exact (Option.some.inj hdecode).symm

/-- The signed text is the URI up to a `&` or a `?`, or all of it. -/
theorem exists_of_strip (uri : Text) : ∃ rest, uri = stripSignatureParam uri ++ rest ∧
    ∀ c r, rest = c :: r → c = '&' ∨ c = '?' := by
  unfold stripSignatureParam
  split
  · rename_i text htext
    obtain ⟨rest, heq⟩ := Split.exists_of_before htext
    exact ⟨_, heq, fun c r h => .inl (List.cons.inj h).1.symm⟩
  · split
    · rename_i text htext
      obtain ⟨rest, heq⟩ := Split.exists_of_before htext
      exact ⟨_, heq, fun c r h => .inr (List.cons.inj h).1.symm⟩
    · exact ⟨[], (append_nil _).symm, fun c r h => by cases h⟩

theorem start_isPrefix_strip {start rest : Text} (huri : uri = start ++ rest) (hand : '&' ∉ start)
    (hquery : '?' ∉ start) : ∃ more, stripSignatureParam uri = start ++ more := by
  obtain ⟨tail, heq, htail⟩ := exists_of_strip uri
  have heq := huri.symm.trans heq
  rcases append_eq_append_iff.1 heq with ⟨more, hmore, -⟩ | ⟨more, hmore, hrest⟩
  · exact ⟨more, hmore⟩
  · rcases more with _ | ⟨c, more⟩
    · exact ⟨[], by rw [hmore, append_nil, append_nil]⟩
    · have hmem : c ∈ start := by
        rw [hmore]
        simp
      rcases htail c _ hrest with rfl | rfl
      · exact absurd hmem hand
      · exact absurd hmem hquery

theorem take_strip (uri : Text) : uri.take (stripSignatureParam uri).length =
    stripSignatureParam uri := by
  obtain ⟨rest, heq, -⟩ := exists_of_strip uri
  have htake := congrArg (List.take (stripSignatureParam uri).length) heq
  rwa [take_left' rfl] at htake

section

variable (h : Parsed V.toExternals uri request params)
  (h' : Parsed V.toExternals uri' request' params')
  (hstrip : stripSignatureParam uri = stripSignatureParam uri')
include h h' hstrip

theorem operation_eq : operation request = operation request' := by
  have hclean : ∀ r : Sep7Request, '&' ∉ scheme ++ operation r ∧ '?' ∉ scheme ++ operation r := by
    intro r
    cases r with
    | tx _ =>
      show '&' ∉ scheme ++ "tx".toList ∧ '?' ∉ scheme ++ "tx".toList
      decide +kernel
    | pay _ =>
      show '&' ∉ scheme ++ "pay".toList ∧ '?' ∉ scheme ++ "pay".toList
      decide +kernel
  obtain ⟨more, hmore⟩ := start_isPrefix_strip h.uri_eq (hclean request).1 (hclean request).2
  obtain ⟨more', hmore'⟩ := start_isPrefix_strip h'.uri_eq (hclean request').1 (hclean request').2
  rw [hstrip, hmore', append_assoc] at hmore
  have heq := append_cancel_left hmore
  cases request <;> cases request' <;> first | rfl | simp [operation] at heq

/-- **The segments that both signatures cover are the same.** -/
theorem take_segments_eq : (segments uri).take (min (coveredCount uri) (coveredCount uri')) =
      (segments uri').take (min (coveredCount uri) (coveredCount uri')) := by
  have hop := operation_eq h h' hstrip
  obtain ⟨base, huri, huri'⟩ : ∃ base, uri = base ++ query uri ∧ uri' = base ++ query uri' := by
    refine ⟨scheme ++ operation request ++ ['?'], ?_, ?_⟩
    · rw [← append_cons]
      exact h.uri_eq
    · rw [← append_cons, hop]
      exact h'.uri_eq
  have hlength : uri.length - (query uri).length = base.length := by
    have hsum := congrArg List.length huri
    rw [length_append] at hsum
    omega
  have hlength' : uri'.length - (query uri').length = base.length := by
    have hsum := congrArg List.length huri'
    rw [length_append] at hsum
    omega
  have htake : (query uri).take ((stripSignatureParam uri).length - base.length) =
      (query uri').take ((stripSignatureParam uri).length - base.length) := by
    have hsame : uri.take (stripSignatureParam uri).length =
        uri'.take (stripSignatureParam uri).length := by
      rw [take_strip, hstrip, take_strip]
    generalize (stripSignatureParam uri).length = n at hsame ⊢
    generalize query uri = q at huri ⊢
    generalize query uri' = q' at huri' ⊢
    rw [huri, huri', take_append, take_append] at hsame
    exact append_cancel_left hsame
  refine Split.take_splitOn_eq htake ?_ ?_
  · refine (min_le_left _ _).trans ?_
    unfold coveredCount segments
    rw [hlength]
  · refine (min_le_right _ _).trans ?_
    unfold coveredCount segments
    rw [hlength', hstrip]

end

/-- Two verified requests with the same signed text agree exactly when the parameters behind the
segments that both signatures cover read the same. -/
theorem unsigned_eq_iff_readSame (hp : Parsed V.toExternals uri request params)
    (hp' : Parsed V.toExternals uri' request' params')
    (hstrip : stripSignatureParam uri = stripSignatureParam uri') :
    request.unsigned = request'.unsigned ↔
      ReadSame V.toExternals request.names (paramsBehind uri uri') (paramsBehind uri' uri) := by
  have hfront := take_segments_eq hp hp' hstrip
  set k := min (coveredCount uri) (coveredCount uri') with hk
  have hparams : params = decodeSegments ((segments uri).take k) ++ paramsBehind uri uri' := by
    unfold paramsBehind
    rw [hp.params_eq, ← decodeSegments_append, take_append_drop]
  have hparams' : params' = decodeSegments ((segments uri).take k) ++ paramsBehind uri' uri := by
    unfold paramsBehind
    rw [hp'.params_eq, min_comm, hfront, ← decodeSegments_append, take_append_drop]
  rw [unsigned_eq_iff hp.reads hp'.reads (operation_eq hp hp' hstrip)]
  -- the names in the common front are read from it, all others from behind it
  refine forall_congr' fun name => forall_congr' fun _ => ?_
  rw [hparams, hparams']
  exact read_append_iff _ (hparams ▸ hp.nodup) (hparams' ▸ hp'.nodup)

/-- **Two verified requests with the same signed text are determined by it exactly when** no segment
outside it has a name that the request reads, in either URI, and the parameters behind the segments
that both signatures cover read the same. -/
theorem determined_by_signed_iff (h : Accepts V tomlBody uri request)
    (h' : Accepts V tomlBody uri' request')
    (hpayload : buildSignaturePayload uri = buildSignaturePayload uri') :
    request.unsigned = request'.unsigned ∧ Covered V.toExternals uri request ∧
        Covered V.toExternals uri' request' ↔
      ReadSame V.toExternals request.names (paramsBehind uri uri') (paramsBehind uri' uri) ∧
        (∀ name ∈ request.names, (paramsOutside uri).get name = none) ∧
        ∀ name ∈ request'.names, (paramsOutside uri').get name = none := by
  obtain ⟨params, hp⟩ := parsed_of_accepts h
  obtain ⟨params', hp'⟩ := parsed_of_accepts h'
  rw [hp.covered_iff, hp'.covered_iff,
    unsigned_eq_iff_readSame hp hp' (strip_eq_of_payload hpayload)]

/-! ## A parameter behind the signature -/

section

def signedText : Text := "web+stellar:pay?destination=GA&origin_domain=a.b".toList

/-- One account, and a signature that is good for the signed text and for nothing else. -/
def oneSignature : Verifier where
  envelope _ := .error "no envelope"
  account v := if v = "GA".toList then some [1] else none
  isUrl _ := true
  isIpAddr _ := false
  isValidLdhHomeDomain _ := true
  debug := String.ofList
  uriRequestSigningKey _ := .ok (some "GA".toList)
  isVerifyingKey _ := true
  base64 _ := some (List.replicate 64 0)
  verify _ payload _ := decide (payload = buildSignaturePayload signedText)

/-- The request with a signature and, maybe, an amount. -/
def payment (amount : Option Text) (signature : Text) : Sep7Request :=
  .pay
    { destination := "GA".toList
      amount := amount
      assetCode := none
      assetIssuer := none
      memo := none
      memoType := none
      callbackRaw := none
      msg := none
      networkPassphrase := none
      originDomain := some "a.b".toList
      signatureRaw := some signature }

/-- The signed text with a signature behind it. -/
def signedUri (signature : String) : Text := signedText ++ ("&signature=" ++ signature).toList

/-- The same, with an amount behind the signature. -/
def extendedUri : Text := signedUri "S" ++ "&amount=5".toList

theorem accepts_signedUri : Accepts oneSignature "" (signedUri "S") (payment none "S".toList) := by
  unfold Accepts
  decide +kernel

/-- Two texts of the signature of one request. -/
theorem resigned_request_agrees :
    Accepts oneSignature "" (signedUri "S") (payment none "S".toList) ∧
      Accepts oneSignature "" (signedUri "T") (payment none "T".toList) ∧
      (payment none "S".toList).unsigned = (payment none "T".toList).unsigned ∧
      Covered oneSignature.toExternals (signedUri "S") (payment none "S".toList) ∧
      Covered oneSignature.toExternals (signedUri "T") (payment none "T".toList) := by
  have hother : Accepts oneSignature "" (signedUri "T") (payment none "T".toList) := by
    unfold Accepts
    decide +kernel
  refine ⟨accepts_signedUri, hother,
    (determined_by_signed_iff accepts_signedUri hother (by decide +kernel)).2
      ⟨?_, by decide +kernel, by decide +kernel⟩⟩
  unfold ReadSame
  decide +kernel

/-- **An amount behind the signature**: the signature is good, and nobody signed the amount. -/
theorem unsigned_amount_accepted :
    Accepts oneSignature "" (signedUri "S") (payment none "S".toList) ∧
      Accepts oneSignature "" extendedUri (payment (some "5".toList) "S".toList) ∧
      buildSignaturePayload (signedUri "S") = buildSignaturePayload extendedUri ∧
      (payment none "S".toList).unsigned ≠ (payment (some "5".toList) "S".toList).unsigned := by
  refine ⟨accepts_signedUri, ?_, by decide +kernel, by decide +kernel⟩
  unfold Accepts
  decide +kernel

end

end AgentWallet.Sep7.Signed
