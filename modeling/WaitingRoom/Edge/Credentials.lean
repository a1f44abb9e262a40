import WaitingRoom.Edge.Admission
import WaitingRoom.System
import Mathlib.Data.Nat.Cast.Order.Basic

/-!
# Sessions, from the minter to the gate

A session is signed as a compact JWS under a key derived from the deployment's secret
(`signingKey`), and read back by a verifier that checks its expiry (`Session.verify`). The gate reads
the same text in another language (`gate_reads`), so a session opens it exactly as long as it
verifies (`session_opens_until_expiry`).
-/

set_option autoImplicit false

namespace WaitingRoom

open Text Edge Concurrency

/-! ## Signing -/

/-- The registered claims a credential carries. -/
structure JwtClaims where
  aud : String
  sub : String
  exp : ℕ
  iat : Option ℕ
  cip : Option String
  deriving DecidableEq

/-- Why the library did not decode a credential. -/
inductive JwtError where
  | invalidSignature
  | other
  deriving DecidableEq, Repr

/-- The JWT library: the JSON it writes, and its two operations under `HS256`. -/
structure Jwt where
  headerText : String
  claimsText : JwtClaims → String
  encode : List UInt8 → JwtClaims → Option String
  decode : List UInt8 → String → Except JwtError JwtClaims

/-- Why a credential did not validate. -/
inductive VerifyError where
  | malformed
  | badSignature
  | expired
  deriving DecidableEq, Repr

/-- The keyed hash of the minter. -/
abbrev KeyedHash := List UInt8 → List UInt8 → List UInt8

/-- `HMAC-SHA256(secret, label)`. -/
def deriveKey (hmac : KeyedHash) (secret label : String) : List UInt8 := hmac (utf8 secret) (utf8 label)

/-- The key sessions are signed under. -/
def sessionKey (hmac : KeyedHash) (secret : String) : List UInt8 :=
  deriveKey hmac secret "vwr/jws/session/v1"

/-- Characters kept of an address tag. -/
def ipTagLen : ℕ := 22

/-- The claims of a session. -/
def Session.claims (session : Session) : JwtClaims :=
  ⟨session.eventId, session.requestId, session.expiresAt, some session.issuedAt, session.ipTag⟩

/-- The signing key of a deployment. -/
def signingKey (jwt : Jwt) (hmac : KeyedHash) (ipNetwork : String → Option String)
    (secret : String) : SigningKey where
  sign session := jwt.encode (sessionKey hmac secret) session.claims
  ipTag ip := (ipNetwork ip).map fun network =>
    String.ofList ((base64url (hmac (deriveKey hmac secret "vwr/ip/v1") (utf8 network))).take ipTagLen)

/-- Verify a compact JWS and return its claims. -/
def verifyClaims (jwt : Jwt) (key : List UInt8) (credential : String) :
    Except VerifyError JwtClaims :=
  match jwt.decode key credential with
  | .ok claims => .ok claims
  | .error .invalidSignature => .error .badSignature
  | .error .other => .error .malformed

/-- Verify a signed session, and that it has not expired. -/
def Session.verify (jwt : Jwt) (key : List UInt8) (credential : String) (now : ℕ) :
    Except VerifyError Session := do
  let claims ← verifyClaims jwt key credential
  if claims.exp ≤ now then throw .expired
  match claims.iat with
  | none => throw .malformed
  | some issuedAt => return ⟨claims.aud, claims.sub, issuedAt, claims.exp, claims.cip⟩

/-- The text that is signed. -/
def Jwt.signingInput (jwt : Jwt) (claims : JwtClaims) : String :=
  String.ofList (base64url (utf8 jwt.headerText)) ++ "." ++
    String.ofList (base64url (utf8 (jwt.claimsText claims)))

/-! ## Minting -/

/-- What an admission says: an admitted visitor's credential is the signed session. -/
def Minting.Mints (minting : Minting) (requestId : RequestId) (viewerIp : Option String) (now : ℕ) :
    Admission → Prop
  | .admitted _ expiresAt credential =>
      expiresAt = saturatingAdd now minting.sessionTtlSecs ∧
        minting.key.sign (minting.session requestId viewerIp now) = some credential
  | _ => True

section Minting

variable {hmac : Hmac} {digestOf : DigestOf} {minting : Minting} {requestId : RequestId}
  {secret : PossessionSecret} {viewerIp : Option String} {now : ℕ} {draw : Option Shard}

theorem mint_mints (history : List (Exchange Tables)) (grant : Grant) :
    Obeys (fun _ _ => True) (fun _ => minting.Mints requestId viewerIp now) history
      (mint minting requestId viewerIp now draw grant) := by
  refine (obeys_trivial _ history).bind fun claimed claim _ => ?_
  refine (obeys_trivial _ claimed).bind fun counted _ _ => ?_
  cases signed : minting.key.sign (minting.session requestId viewerIp now) with
  | some credential =>
      simp only [signed]
      exact ⟨rfl, signed⟩
  | none =>
      simp only [signed]
      exact trivial

/-- Every session `admitVisitor` hands out was signed for the visitor and the moment it was called with. -/
theorem admit_mints (history : List (Exchange Tables)) :
    Obeys (fun _ _ => True)
      (fun _ => onResult (minting.Mints requestId viewerIp now) fun _ => True) history
      (admitVisitor hmac digestOf minting requestId secret viewerIp now draw) := by
  refine (obeys_trivial _ history).bind fun read queue _ => ?_
  match queue with
  | .error error => exact trivial
  | .ok none => exact trivial
  | .ok (some counters) =>
      refine (obeys_trivial _ read).bind fun positioned position _ => ?_
      match position with
      | .error error => exact trivial
      | .ok positionRow =>
          refine (obeys_trivial _ positioned).bind fun registered registration _ => ?_
          match registration with
          | .error error => exact trivial
          | .ok prequeue =>
              simp only
              split
              · exact trivial
              · next grant _ =>
                  exact (mint_mints registered grant).bind fun _ _ minted => minted

/-- **What is minted**: an admitted visitor's credential is the signed session. -/
theorem admit_admitted {start later : List (Exchange Tables)} {position expiresAt : ℕ}
    {credential : String}
    (returned : Returns (admitVisitor hmac digestOf minting requestId secret viewerIp now draw) start later
      (.ok (.admitted position expiresAt credential))) :
    expiresAt = saturatingAdd now minting.sessionTtlSecs ∧
      minting.key.sign (minting.session requestId viewerIp now) = some credential :=
  (admit_mints start).returned returned

end Minting

/-! ## Segments -/

/-- A segment of a credential: bytes in base64url, as the script sees them. -/
def segment (bytes : List UInt8) : Units := (base64url bytes).flatMap encodeUtf16

/-- The script hashes the bytes of a text. -/
theorem bytesOf_utf16 (text : String) : bytesOf (utf16 text) = utf8 text := by
  rw [bytesOf, scalars_utf16, List.flatMap_map]
  rfl

theorem utf16_ofList (chars : List Char) : utf16 (String.ofList chars) = chars.flatMap encodeUtf16 := by
  rw [utf16, String.toList_ofList]

theorem ascii_of_isBase64url {c : Char} (letter : isBase64url c = true) : c.toNat < 0x80 := by
  simp only [isBase64url, Bool.or_eq_true, Bool.and_eq_true, decide_eq_true_eq, beq_iff_eq,
    Char.le_def, UInt32.le_iff_toNat_le] at letter
  change c.val.toNat < 128
  rcases letter with (((⟨_, upper⟩ | ⟨_, upper⟩) | ⟨_, upper⟩) | rfl) | rfl
  · exact upper.trans_lt (by decide)
  · exact upper.trans_lt (by decide)
  · exact upper.trans_lt (by decide)
  · decide
  · decide

theorem segment_eq_map (bytes : List UInt8) :
    segment bytes = (base64url bytes).map fun c => .ofNat c.toNat :=
  flatMap_encodeUtf16_ascii fun _ member => ascii_of_isBase64url (isBase64url_of_mem member)

/-- Every unit of a segment is a letter of the alphabet. -/
theorem isBase64url_of_mem_segment {bytes : List UInt8} {unit : UInt16} (member : unit ∈ segment bytes) :
    unit.toNat < 0x80 ∧ isBase64url (Char.ofNat unit.toNat) = true := by
  rw [segment_eq_map] at member
  obtain ⟨c, found, rfl⟩ := List.mem_map.mp member
  have letter := isBase64url_of_mem found
  have ascii := ascii_of_isBase64url letter
  rw [toNat_ofNat_unit (by omega), Char.ofNat_toNat]
  exact ⟨ascii, letter⟩

theorem dot_not_mem_segment (bytes : List UInt8) : 46 ∉ segment bytes := by
  intro member
  exact absurd (isBase64url_of_mem_segment member).2 (by decide)

theorem isBase64urlText_segment {bytes : List UInt8} (some : bytes ≠ []) :
    Gate.isBase64urlText (segment bytes) = true := by
  have letters : segment bytes ≠ [] := by
    rw [segment_eq_map, ne_eq, List.map_eq_nil_iff]
    exact base64url_ne_nil some
  rw [Gate.isBase64urlText, decide_eq_true letters, Bool.true_and, List.all_eq_true]
  intro unit member
  obtain ⟨ascii, letter⟩ := isBase64url_of_mem_segment member
  rw [letter, Bool.and_true]
  exact decide_eq_true ascii

theorem segment_injective : Function.Injective segment := by
  intro bytes other same
  rw [segment, segment, ← utf16_ofList, ← utf16_ofList] at same
  exact base64url_injective (String.ofList_injective (utf16_injective same))

/-- Three segments are read as three. -/
theorem splitOn_segments (first second third : List UInt8) :
    (segment first ++ [46] ++ segment second ++ [46] ++ segment third).splitOn 46 =
      [segment first, segment second, segment third] := by
  rw [List.append_assoc, List.append_assoc, List.append_assoc, List.singleton_append,
    List.splitOn_append_cons_self_of_not_mem (dot_not_mem_segment first), List.singleton_append,
    List.splitOn_append_cons_self_of_not_mem (dot_not_mem_segment second),
    List.splitOn_eq_singleton (dot_not_mem_segment third)]

/-! ## Reading -/

/-- The address tag as the script sees it. -/
def tagValue (tag : Option String) : JsValue :=
  match tag with
  | some tag => .string (utf16 tag)
  | none => .undefined

/-- The claims as the script sees them. -/
def JwtClaims.value (claims : JwtClaims) : JsValue :=
  .object ([(utf16 "aud", .string (utf16 claims.aud)), (utf16 "sub", .string (utf16 claims.sub)),
      (utf16 "exp", .number (.finite (nearestDouble claims.exp)))] ++
    (claims.iat.map fun iat => (utf16 "iat", .number (.finite (nearestDouble iat)))).toList ++
    (claims.cip.map fun cip => (utf16 "cip", .string (utf16 cip))).toList)

/-- What the edge documents of its runtime. -/
structure Platform (runtime : Runtime) : Prop where
  decodes : ∀ bytes, runtime.fromBase64url (segment bytes) = bytes
  empty : runtime.jsonParse [] = none
  digest : ∀ key message, (runtime.hmac key message).length = 32

/-- What the library signs, and that the script parses the JSON it writes. -/
structure Jwt.Compact (jwt : Jwt) (runtime : Runtime) : Prop where
  header : ∃ header, runtime.jsonParse (utf16 jwt.headerText) = some header ∧
    header.member "alg" = .string (utf16 "HS256")
  parsed : ∀ {key claims credential}, jwt.encode key claims = some credential →
    runtime.jsonParse (utf16 (jwt.claimsText claims)) = some claims.value
  signed : ∀ {key claims credential}, jwt.encode key claims = some credential →
    credential = jwt.signingInput claims ++ "." ++
      String.ofList (base64url (runtime.hmac key (utf8 (jwt.signingInput claims))))
  decoded : ∀ {key claims credential}, jwt.encode key claims = some credential →
    jwt.decode key credential = .ok claims

@[simp] theorem member_aud (claims : JwtClaims) :
    claims.value.member "aud" = .string (utf16 claims.aud) := by
  simp [JwtClaims.value, JsValue.member]

@[simp] theorem member_exp (claims : JwtClaims) :
    claims.value.member "exp" = .number (.finite (nearestDouble claims.exp)) := by
  have names : utf16 "aud" ≠ utf16 "exp" ∧ utf16 "sub" ≠ utf16 "exp" := by decide +kernel
  simp [JwtClaims.value, JsValue.member, names]

@[simp] theorem member_cip (claims : JwtClaims) : claims.value.member "cip" = tagValue claims.cip := by
  have names : utf16 "aud" ≠ utf16 "cip" ∧ utf16 "sub" ≠ utf16 "cip" ∧ utf16 "exp" ≠ utf16 "cip" ∧
      utf16 "iat" ≠ utf16 "cip" := by
    decide +kernel
  obtain ⟨aud, sub, exp, iat, cip⟩ := claims
  cases iat <;> cases cip <;> simp [JwtClaims.value, JsValue.member, tagValue, names]

section Reading

variable {jwt : Jwt} {gate : Gate}

/-- A segment of JSON is read as the runtime parses its text. -/
theorem decodeJson_segment (platform : Platform gate.runtime) (text : String) :
    gate.decodeJson (segment (utf8 text)) = (gate.runtime.jsonParse (utf16 text)).getD .null := by
  rw [Gate.decodeJson, platform.decodes, utf8, fromUtf8Lossy_flatMap]
  rfl

/-- The parts of what the library signs. -/
theorem Jwt.Compact.units {runtime : Runtime} (compact : jwt.Compact runtime) {key : List UInt8}
    {claims : JwtClaims} {credential : String} (signed : jwt.encode key claims = some credential) :
    utf16 credential = segment (utf8 jwt.headerText) ++ [46] ++
      segment (utf8 (jwt.claimsText claims)) ++ [46] ++
        segment (runtime.hmac key (utf8 (jwt.signingInput claims))) := by
  rw [compact.signed signed]
  simp only [Jwt.signingInput, utf16_append, utf16_ofList]
  rfl

/-- The gate hashes what the library signed. -/
theorem bytesOf_signed (claims : JwtClaims) :
    bytesOf (segment (utf8 jwt.headerText) ++ [46] ++ segment (utf8 (jwt.claimsText claims))) =
      utf8 (jwt.signingInput claims) := by
  have text : utf16 (jwt.signingInput claims) =
      segment (utf8 jwt.headerText) ++ [46] ++ segment (utf8 (jwt.claimsText claims)) := by
    simp only [Jwt.signingInput, utf16_append, utf16_ofList]
    rfl
  rw [← text, bytesOf_utf16]

theorem derive_sessionKey (secret : String) :
    gate.derive (utf16 secret) "vwr/jws/session/v1" = sessionKey gate.runtime.hmac secret := by
  rw [Gate.derive, bytesOf_utf16, bytesOf_utf16]
  rfl

/-- **What the gate reads of a signed credential**: its claims, when the keyed hash under its own
secret is the one that was signed, and nothing otherwise. -/
theorem gate_reads (platform : Platform gate.runtime) (compact : jwt.Compact gate.runtime)
    {secret minted : String} {claims : JwtClaims} {credential : String}
    (signed : jwt.encode (sessionKey gate.runtime.hmac minted) claims = some credential) :
    gate.verify (utf16 credential) (utf16 secret) =
      if gate.runtime.hmac (sessionKey gate.runtime.hmac minted) (utf8 (jwt.signingInput claims)) =
          gate.runtime.hmac (sessionKey gate.runtime.hmac secret) (utf8 (jwt.signingInput claims)) then
        some ⟨utf16 claims.aud, .finite (nearestDouble claims.exp), tagValue claims.cip⟩
      else none := by
  have parts := splitOn_segments (utf8 jwt.headerText) (utf8 (jwt.claimsText claims))
    (gate.runtime.hmac (sessionKey gate.runtime.hmac minted) (utf8 (jwt.signingInput claims)))
  rw [← compact.units signed] at parts
  have digest : gate.digest (gate.derive (utf16 secret) "vwr/jws/session/v1")
      (segment (utf8 jwt.headerText) ++ [46] ++ segment (utf8 (jwt.claimsText claims))) =
      segment (gate.runtime.hmac (sessionKey gate.runtime.hmac secret)
        (utf8 (jwt.signingInput claims))) := by
    rw [Gate.digest, bytesOf_signed, derive_sessionKey]
    rfl
  split_ifs with same
  · have payload : gate.decodeJson (segment (utf8 (jwt.claimsText claims))) = claims.value := by
      rw [decodeJson_segment platform, compact.parsed signed]
      rfl
    have some : utf8 (jwt.claimsText claims) ≠ [] := by
      intro none
      have read := fromUtf8Lossy_flatMap (jwt.claimsText claims).toList
      rw [← utf8, none] at read
      have units : utf16 (jwt.claimsText claims) = [] := by
        rw [utf16, ← read]
        rfl
      have parsed := compact.parsed signed
      rw [units, platform.empty] at parsed
      cases parsed
    have hashed : gate.runtime.hmac (sessionKey gate.runtime.hmac minted)
        (utf8 (jwt.signingInput claims)) ≠ [] :=
      List.ne_nil_of_length_pos (by rw [platform.digest]; decide)
    obtain ⟨header, parsed, alg⟩ := compact.header
    refine verify_eq_some.mpr ⟨_, _, _, parts, isBase64urlText_segment some,
      isBase64urlText_segment hashed, ?_, ?_, ?_, ?_, ?_⟩
    · rw [decodeJson_segment platform, parsed]
      exact alg
    · rw [digest, same]
    · rw [payload, member_aud]
    · rw [payload, member_exp]
    · rw [payload, member_cip]
  · refine Option.eq_none_iff_forall_ne_some.mpr fun read verified => same ?_
    obtain ⟨first, second, third, split, -, -, -, mac, -⟩ := verify_eq_some.mp verified
    rw [parts] at split
    obtain ⟨rfl, rfl, rfl⟩ : segment (utf8 jwt.headerText) = first ∧
        segment (utf8 (jwt.claimsText claims)) = second ∧ _ = third := by
      simpa using split
    rw [digest] at mac
    exact (segment_injective mac).symm

end Reading

/-! ## Presenting -/

/-- A covered request outside both windows, with addresses not bound, that presents a credential. -/
structure Presents (gate : Gate) (cfg : Document) (now : ℕ) (seen : Request) (credential : String) :
    Prop where
  version : cfg.v = .finite 1
  covered : gate.protectedByRule seen cfg.r = .ok true
  enforced : Gate.windowOpen cfg.s now = false
  closed : Gate.windowOpen cfg.f now = false
  unbound : cfg.b = false
  cookie : ownProperty seen.cookies (utf16 gate.sessionCookie) = some ⟨some (utf16 credential)⟩

/-- A credential that is read, for the gate's event, and has not expired. -/
def Edge.Gate.Accepts (gate : Gate) (now : ℕ) (credential secret : Units) : Prop :=
  ∃ session, gate.verify credential secret = some session ∧ session.eventId = utf16 gate.eventId ∧
    ¬ session.expiresAt.le (.finite now)

section Presenting

variable {gate : Gate} {cfg : Document} {now : ℕ} {sent : ViewerRequest} {credential secret : String}

/-- The checks of a session, while addresses are not bound. -/
theorem checkSession_unbound {kvs : Kvs} {ip key : Units} {request : Request} (texts : request.Texts)
    (stored : kvs.secret = .ok key) (cookie : ownProperty request.cookies (utf16 gate.sessionCookie) =
      some ⟨some (utf16 credential)⟩) :
    (gate.Accepts now (utf16 credential) key →
      gate.checkSession kvs false now ip request = .ok (.origin request)) ∧
    (¬ gate.Accepts now (utf16 credential) key →
      ∃ response, gate.checkSession kvs false now ip request = .ok (.respond response)) := by
  have refused : ∀ reason, ∃ response, gate.refuse request reason = .ok (.respond response) :=
    refuse_total gate texts.uri texts.headers texts.querystring
  rw [checkSession_verified stored cookie]
  constructor
  · rintro ⟨session, verified, event, fresh⟩
    rw [verified]
    simp only
    rw [if_neg (not_not.mpr event), if_neg fresh, if_neg (by simp)]
  · intro rejected
    cases verified : gate.verify (utf16 credential) key with
    | none => exact refused "signature"
    | some session =>
        simp only
        split_ifs with event expired address
        · exact refused "event"
        · exact refused "expired"
        · exact refused "ip"
        · exact absurd ⟨session, verified, not_not.mp event, expired⟩ rejected

/-- **A presented credential** passes when the gate accepts it, and is refused otherwise. -/
theorem handler_presented (ip : Units)
    (presents : Presents gate cfg now (Gate.stripSpoofableHeaders sent.toJs) credential) :
    (gate.Accepts now (utf16 credential) (utf16 secret) →
      gate.handler ⟨.ok cfg, .ok (utf16 secret)⟩ now ⟨sent.toJs, ip⟩ =
        .origin (Gate.stripSpoofableHeaders sent.toJs)) ∧
    (¬ gate.Accepts now (utf16 credential) (utf16 secret) →
      ∃ response, gate.handler ⟨.ok cfg, .ok (utf16 secret)⟩ now ⟨sent.toJs, ip⟩ =
        .respond response) := by
  have attempt := @attempt_covered gate cfg ip now _ ⟨.ok cfg, .ok (utf16 secret)⟩ rfl presents.version
    presents.covered presents.enforced presents.closed
  rw [presents.unbound] at attempt
  obtain ⟨passes, refuses⟩ := @checkSession_unbound gate now credential ⟨.ok cfg, .ok (utf16 secret)⟩ ip
    (utf16 secret) _ (texts_seen sent) rfl presents.cookie
  unfold Gate.handler
  simp only [attempt]
  constructor
  · intro accepted
    rw [passes accepted]
  · intro rejected
    obtain ⟨response, refused⟩ := refuses rejected
    exact ⟨response, by rw [refused]⟩

end Presenting

/-- The latest second of a date of the script. -/
def latestDate : ℕ := 8640000000000

section Sessions

variable {jwt : Jwt} {gate : Gate}

/-- A signed credential is accepted exactly when the keyed hash under the gate's secret is the one
that was signed, the audience is the gate's event and the session has not expired. -/
theorem accepts_signed (platform : Platform gate.runtime) (compact : jwt.Compact gate.runtime)
    {secret minted : String} {claims : JwtClaims} {credential : String} {now : ℕ}
    (date : now ≤ latestDate)
    (signed : jwt.encode (sessionKey gate.runtime.hmac minted) claims = some credential) :
    gate.Accepts now (utf16 credential) (utf16 secret) ↔
      gate.runtime.hmac (sessionKey gate.runtime.hmac minted) (utf8 (jwt.signingInput claims)) =
          gate.runtime.hmac (sessionKey gate.runtime.hmac secret) (utf8 (jwt.signingInput claims)) ∧
        claims.aud = gate.eventId ∧ now < claims.exp := by
  have small : now < 2 ^ 53 := lt_of_le_of_lt date (by decide)
  have fresh : ¬ (JsNumber.finite (nearestDouble claims.exp)).le (.finite now) ↔ now < claims.exp := by
    rw [JsNumber.le, decide_eq_true_iff, Nat.cast_le, nearestDouble_le_iff small, Nat.not_le]
  rw [Edge.Gate.Accepts, gate_reads platform compact signed]
  split_ifs with same
  · constructor
    · rintro ⟨session, read, event, expiry⟩
      obtain rfl := Option.some.inj read
      exact ⟨same, utf16_injective event, fresh.mp expiry⟩
    · rintro ⟨-, event, expiry⟩
      exact ⟨_, rfl, congrArg utf16 event, fresh.mpr expiry⟩
  · constructor
    · rintro ⟨session, read, -⟩
      cases read
    · rintro ⟨same', -⟩
      exact absurd same' same

/-- What is signed verifies, under the same key, until it expires. -/
theorem verify_signed {runtime : Runtime} (compact : jwt.Compact runtime) {key : List UInt8}
    {session : Session} {credential : String} (signed : jwt.encode key session.claims = some credential)
    (now : ℕ) :
    Session.verify jwt key credential now =
      if session.expiresAt ≤ now then .error .expired else .ok session := by
  rw [Session.verify, verifyClaims, compact.decoded signed]
  by_cases expired : session.expiresAt ≤ now
  · rw [if_pos expired]
    simp only [bind, Except.bind, Session.claims, expired, if_true]
    rfl
  · rw [if_neg expired]
    simp only [bind, Except.bind, Session.claims, expired, if_false]
    rfl

end Sessions

/-- **An admitted visitor's session opens the gate exactly until it expires.** A credential `admitVisitor`
hands out passes its event's gate exactly while it verifies, which is until it expires, and both
read the same session off it; at the gate of another event, or under a secret whose keyed hash is
another, it is refused. -/
theorem session_opens_until_expiry (jwt : Jwt) (gate : Gate) (platform : Platform gate.runtime)
    (compact : jwt.Compact gate.runtime) (ipNetwork : String → Option String) (minted eventId : String)
    (ttl : ℕ) (prp : Hmac) (digestOf : DigestOf) (requestId : RequestId) (possession : PossessionSecret)
    (viewerIp : Option String) (mintTime : ℕ) (draw : Option Shard) (start later : List (Exchange Tables))
    (position expiresAt : ℕ) (credential : String)
    (admitted : Returns (admitVisitor prp digestOf
      ⟨signingKey jwt gate.runtime.hmac ipNetwork minted, eventId, ttl⟩ requestId possession viewerIp
      mintTime draw) start later (.ok (.admitted position expiresAt credential)))
    (secret : String) (cfg : Document) (sent : ViewerRequest) (ip : Units) (now : ℕ)
    (date : now ≤ latestDate)
    (presents : Presents gate cfg now (Gate.stripSpoofableHeaders sent.toJs) credential) :
    let key := sessionKey gate.runtime.hmac minted
    let session : Session := Minting.session
      ⟨signingKey jwt gate.runtime.hmac ipNetwork minted, eventId, ttl⟩ requestId viewerIp mintTime
    let outcome := gate.handler ⟨.ok cfg, .ok (utf16 secret)⟩ now ⟨sent.toJs, ip⟩
    let input := utf8 (jwt.signingInput session.claims)
    (session.eventId = eventId ∧ session.expiresAt = expiresAt) ∧
    (Session.verify jwt key credential now =
      if now < expiresAt then .ok session else .error .expired) ∧
    (minted = secret → gate.verify (utf16 credential) (utf16 secret) =
      some ⟨utf16 session.eventId, .finite (nearestDouble session.expiresAt),
        tagValue session.ipTag⟩) ∧
    (minted = secret → eventId = gate.eventId →
      ((∃ passed, outcome = .origin passed) ↔ now < expiresAt)) ∧
    (eventId ≠ gate.eventId ∨ gate.runtime.hmac key input ≠
        gate.runtime.hmac (sessionKey gate.runtime.hmac secret) input →
      ∃ response, outcome = .respond response) := by
  intro key session outcome input
  obtain ⟨expiry, signed⟩ := admit_admitted admitted
  have encoded : jwt.encode key session.claims = some credential := signed
  have accepts : gate.Accepts now (utf16 credential) (utf16 secret) ↔
      gate.runtime.hmac key input = gate.runtime.hmac (sessionKey gate.runtime.hmac secret) input ∧
        session.claims.aud = gate.eventId ∧ now < session.claims.exp :=
    accepts_signed platform compact date encoded
  obtain ⟨passes, refuses⟩ : (gate.Accepts now (utf16 credential) (utf16 secret) →
      outcome = .origin (Gate.stripSpoofableHeaders sent.toJs)) ∧
        (¬ gate.Accepts now (utf16 credential) (utf16 secret) →
          ∃ response, outcome = .respond response) :=
    handler_presented ip presents
  have until_ : session.expiresAt = expiresAt := expiry.symm
  refine ⟨⟨rfl, until_⟩, ?_, ?_, ?_, ?_⟩
  · rw [verify_signed compact encoded, until_]
    by_cases fresh : now < expiresAt
    · rw [if_pos fresh, if_neg (Nat.not_le.mpr fresh)]
    · rw [if_neg fresh, if_pos (Nat.not_lt.mp fresh)]
  · rintro rfl
    rw [gate_reads platform compact encoded, if_pos rfl]
    rfl
  · rintro rfl event
    constructor
    · rintro ⟨passed, went⟩
      by_contra expired
      obtain ⟨response, refused⟩ := refuses fun accepted => expired ((accepts.mp accepted).2.2.trans_eq until_)
      cases went.symm.trans refused
    · intro fresh
      exact ⟨_, passes (accepts.mpr ⟨rfl, event, fresh.trans_eq expiry⟩)⟩
  · intro other
    refine refuses fun accepted => ?_
    obtain ⟨same, event, -⟩ := accepts.mp accepted
    rcases other with event' | hash
    · exact event' event
    · exact hash same

namespace Sample

/-- The keys that HMAC-SHA256 derives from the sample's secret, and what it makes of an address and
of a credential under them. -/
def sessionKeyBytes : List UInt8 :=
  [133, 31, 208, 145, 119, 8, 96, 162, 19, 31, 91, 209, 159, 112, 252, 171, 7, 231, 255, 161, 253, 29,
    214, 155, 240, 131, 94, 103, 83, 165, 155, 184]

def addressKeyBytes : List UInt8 :=
  [135, 247, 202, 208, 205, 191, 127, 101, 225, 215, 10, 82, 72, 20, 23, 110, 83, 46, 223, 183, 230,
    193, 12, 95, 9, 178, 214, 250, 2, 224, 55, 215]

def addressBytes : List UInt8 :=
  [155, 156, 132, 99, 164, 65, 239, 196, 51, 188, 87, 160, 40, 227, 104, 132, 15, 28, 53, 120, 111, 97,
    120, 250, 113, 88, 177, 248, 9, 169, 116, 101]

def sessionBytes : List UInt8 :=
  [170, 120, 147, 233, 122, 111, 105, 222, 22, 255, 35, 11, 176, 217, 201, 217, 24, 233, 234, 173, 30,
    235, 15, 175, 122, 39, 120, 158, 253, 48, 107, 69]

/-- The claims of the first visitor, and the JSON of them. -/
def aliceClaims : JwtClaims := ⟨"demo", alice, 1700003600, some 1700000000, some "m5yEY6RB78QzvFegKONohA"⟩

def headerJson : String := "\x7b\"typ\":\"JWT\",\"alg\":\"HS256\"\x7d"

def claimsJson : String :=
  "\x7b\"aud\":\"demo\",\"sub\":\"018f3a2b-7c9d-7e1f-abcd-0123456789ab\",\"exp\":1700003600," ++
    "\"iat\":1700000000,\"cip\":\"m5yEY6RB78QzvFegKONohA\"\x7d"

def signedText : String :=
  String.ofList (base64url (utf8 headerJson)) ++ "." ++ String.ofList (base64url (utf8 claimsJson))

def credential : String := signedText ++ "." ++ String.ofList (base64url sessionBytes)

/-- HMAC-SHA256 where the sample uses it. -/
def keyedHash : KeyedHash := fun key message =>
  if key = utf8 "secret" ∧ message = utf8 "vwr/jws/session/v1" then sessionKeyBytes
  else if key = utf8 "secret" ∧ message = utf8 "vwr/ip/v1" then addressKeyBytes
  else if key = addressKeyBytes ∧ message = utf8 "192.0.2.1" then addressBytes
  else if key = sessionKeyBytes ∧ message = utf8 signedText then sessionBytes
  else List.replicate 32 0

/-- The library where the sample uses it. -/
def jwt : Jwt where
  headerText := headerJson
  claimsText _ := claimsJson
  encode key claims := if key = sessionKeyBytes ∧ claims = aliceClaims then some credential else none
  decode key text :=
    if key = sessionKeyBytes ∧ text = credential then .ok aliceClaims else .error .other

/-- The JSON parser where the sample uses it. -/
def jsonParse (text : Units) : Option JsValue :=
  if text = utf16 headerJson then
    some (.object [(utf16 "typ", .string (utf16 "JWT")), (utf16 "alg", .string (utf16 "HS256"))])
  else if text = utf16 claimsJson then some aliceClaims.value
  else none

/-- The edge's runtime where the sample uses it. -/
def runtime : Runtime where
  toLowerCase := List.map latinLower
  jsonParse := jsonParse
  fromBase64url text := decodeBase64url (text.map fun unit => Char.ofNat unit.toNat)
  hmac := keyedHash

def sessionGate : Gate := ⟨"demo", "vwr_session", "/waiting", runtime⟩

theorem platform : Platform sessionGate.runtime where
  decodes bytes := by
    have letters : (segment bytes).map (fun unit => Char.ofNat unit.toNat) = base64url bytes := by
      rw [segment_eq_map, List.map_map]
      refine (List.map_congr_left fun c member => ?_).trans (List.map_id _)
      have ascii := ascii_of_isBase64url (isBase64url_of_mem member)
      simp only [Function.comp_apply, id_eq]
      rw [toNat_ofNat_unit (by omega), Char.ofNat_toNat]
    change decodeBase64url ((segment bytes).map fun unit => Char.ofNat unit.toNat) = bytes
    rw [letters, decodeBase64url_encode]
  empty := by decide +kernel
  digest key message := by
    change (keyedHash key message).length = 32
    rw [keyedHash]
    split_ifs <;> rfl

/-- The one credential of the sample. -/
theorem encode_eq_some {key : List UInt8} {claims : JwtClaims} {text : String}
    (encoded : jwt.encode key claims = some text) :
    key = sessionKeyBytes ∧ claims = aliceClaims ∧ text = credential := by
  simp only [jwt] at encoded
  split_ifs at encoded with same
  exact ⟨same.1, same.2, (Option.some.inj encoded).symm⟩

theorem compact : jwt.Compact sessionGate.runtime where
  header := by
    have parsed : jsonParse (utf16 headerJson) = some (.object
        [(utf16 "typ", .string (utf16 "JWT")), (utf16 "alg", .string (utf16 "HS256"))]) := by
      rw [jsonParse, if_pos rfl]
    refine ⟨_, parsed, ?_⟩
    have names : utf16 "typ" ≠ utf16 "alg" := by decide +kernel
    simp [JsValue.member, names]
  parsed := by
    intro key claims text encoded
    obtain ⟨rfl, rfl, rfl⟩ := encode_eq_some encoded
    have other : utf16 claimsJson ≠ utf16 headerJson := by decide +kernel
    simp only [sessionGate, runtime, jwt]
    rw [jsonParse, if_neg other, if_pos rfl]
  signed := by
    intro key claims text encoded
    obtain ⟨rfl, rfl, rfl⟩ := encode_eq_some encoded
    have keys : sessionKeyBytes ≠ utf8 "secret" ∧ sessionKeyBytes ≠ addressKeyBytes := by
      decide +kernel
    have hashed : keyedHash sessionKeyBytes (utf8 signedText) = sessionBytes := by
      rw [keyedHash, if_neg fun both => keys.1 both.1, if_neg fun both => keys.1 both.1,
        if_neg fun both => keys.2 both.1, if_pos ⟨rfl, rfl⟩]
    have input : jwt.signingInput aliceClaims = signedText := by
      simp only [Jwt.signingInput, jwt, signedText]
    simp only [sessionGate, runtime, input]
    rw [hashed, credential]
  decoded := by
    intro key claims text encoded
    obtain ⟨rfl, rfl, rfl⟩ := encode_eq_some encoded
    simp only [jwt, and_self, if_true]

/-- The tables of a visitor whose turn has come. -/
def turnReached : (call : Call) → Tables.Answer call
  | .getCounters _ => .ok (some fun key =>
      if key = "phase" then some (.S "active")
      else if key = "serving_counter" then some (.N 10)
      else none)
  | .updateCounters _ => .ok none
  | .getShard _ => .ok none
  | .addShard _ _ => .error validationError
  | .getArrivals _ => .ok none
  | .addArrivals _ => .ok ()
  | .getPrequeue _ => .ok none
  | .batchGetPrequeue _ => .ok []
  | .putPrequeue _ => .ok .written
  | .getPosition _ _ => .ok (some ⟨alice, 3, .issued, some aliceDigest⟩)
  | .putPosition _ => .ok .written
  | .claimAdmission _ _ _ => .ok .first

/-- The admission of a visitor whose turn has come. -/
def admission : Program Tables (Except StoreError Admission) :=
  admitVisitor deployment.hmac deployment.digestOf
    ⟨signingKey jwt keyedHash (fun _ => some "192.0.2.1") "secret", "demo", 3600⟩ alice aliceSecret
    (some "192.0.2.1") 1700000000 (some shard)

theorem admission_admits : admission.play turnReached = .ok (.admitted 3 1700003600 credential) := by
  decide +kernel

/-- A document that covers a path, outside both windows, with addresses not bound. -/
def coveringDocument : Document :=
  ⟨.finite 1, .finite 0, .finite 0, [(ProtectionRule.pathPrefix "/shop").wire], false⟩

/-- A request that presents the credential. -/
def presenting : ViewerRequest where
  uri := "/shop"
  headers := []
  cookies := [("vwr_session", credential)]
  querystring := []

theorem presents (now : ℕ) : Presents sessionGate coveringDocument now
    (Gate.stripSpoofableHeaders presenting.toJs) credential where
  version := rfl
  covered := by
    rw [coveringDocument, Gate.protectedByRule, matches_path]
    have starts : decide (indexOf (sessionGate.runtime.toLowerCase (utf16 "/shop"))
        (sessionGate.normalizedPath (Gate.stripSpoofableHeaders presenting.toJs).uri) = some 0) = true := by
      decide +kernel
    rw [starts]
    rfl
  enforced := by simp [coveringDocument, Gate.windowOpen, JsValue.truthy]
  closed := by simp [coveringDocument, Gate.windowOpen, JsValue.truthy]
  unbound := rfl
  cookie := by
    simp only [Gate.stripSpoofableHeaders, presenting, ViewerRequest.toJs, fieldsOf, List.map_cons,
      List.map_nil, sessionGate, ownProperty, List.find?_cons, decide_true, Option.map_some]

end Sample

/-- A session of an hour passes in its last second, and not in the next. -/
theorem session_opens_until_expiry_sample :
    (∃ passed, Sample.sessionGate.handler ⟨.ok Sample.coveringDocument, .ok (utf16 "secret")⟩
      1700003599 ⟨Sample.presenting.toJs, utf16 "192.0.2.1"⟩ = .origin passed) ∧
    ¬ ∃ passed, Sample.sessionGate.handler ⟨.ok Sample.coveringDocument, .ok (utf16 "secret")⟩
      1700003600 ⟨Sample.presenting.toJs, utf16 "192.0.2.1"⟩ = .origin passed := by
  obtain ⟨later, returned⟩ := Sample.admission.exists_returns Sample.turnReached []
  rw [Sample.admission_admits] at returned
  have passes (now : ℕ) (date : now ≤ latestDate) :=
    (session_opens_until_expiry Sample.jwt Sample.sessionGate Sample.platform Sample.compact
      (fun _ => some "192.0.2.1") "secret" "demo" 3600 _ _ _ _ _ _ _ [] later 3 1700003600
      Sample.credential returned "secret" Sample.coveringDocument Sample.presenting
      (utf16 "192.0.2.1") now date (Sample.presents now)).2.2.2.1 rfl rfl
  exact ⟨(passes 1700003599 (by decide)).mpr (by decide),
    mt (passes 1700003600 (by decide)).mp (by decide)⟩

end WaitingRoom
