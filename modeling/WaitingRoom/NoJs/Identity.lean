import WaitingRoom.Common.Uuid
import WaitingRoom.Edge.RuleForm
import WaitingRoom.Lambda.AssignPosition
import WaitingRoom.Lambda.GenerateToken
import WaitingRoom.Text.Base64url

/-!
# The identity of a visitor without a script

The server draws what the script would: an id that carries its time, and a secret of 32 bytes. Both are
kept in one cookie and are found again among whatever other cookies a browser sends, and the join, which
carries the id and the digest of the secret, is one that a batch takes (`minted_comes_back`).
-/

set_option autoImplicit false

namespace WaitingRoom.NoJs

open Text Edge

/-! ## Identities -/

/-- An id and the secret that proves it. -/
structure Identity where
  requestId : RequestId
  secret : PossessionSecret
  deriving DecidableEq

/-- The random number generator of the system cannot be read. -/
structure RngUnavailable where
  deriving DecidableEq, Repr

/-- What the random number generator fills. -/
structure Draw where
  idBits : Fin 10 → UInt8
  secret : List UInt8
  size : secret.length = 32

/-- A fresh identity, unless the generator fails. -/
def Identity.mint (nowMs : ℕ) (draw : Option Draw) : Except RngUnavailable Identity :=
  match draw with
  | none => .error ⟨⟩
  | some draw =>
      match PossessionSecret.parse (String.ofList (base64url draw.secret)) with
      | none => .error ⟨⟩
      | some secret => .ok ⟨requestIdAt nowMs draw.idBits, secret⟩

/-- The identity of a cookie's value: an id, a dot and a secret. -/
def Identity.parse (value : String) : Option Identity :=
  match splitOnce (· == '.') value.toList with
  | none => none
  | some (requestId, secret) =>
      if isUuidShape (String.ofList requestId) then
        (PossessionSecret.parse (String.ofList secret)).map (⟨String.ofList requestId, ·⟩)
      else none

/-- The value of the cookie. -/
def Identity.cookieValue (identity : Identity) : String :=
  identity.requestId ++ "." ++ identity.secret.text

/-- The join: the secret itself never goes on the queue. -/
def Identity.joinMessage (digestOf : DigestOf) (identity : Identity) (eventId : String) : JoinMessage :=
  ⟨identity.requestId, eventId, digestOf identity.secret⟩

/-- The id of an identity has the shape of one. -/
def Identity.WellFormed (identity : Identity) : Prop := isUuidShape identity.requestId = true

/-! ### What was drawn -/

/-- 32 bytes are a secret. -/
theorem isB64url32_base64url {bytes : List UInt8} (size : bytes.length = 32) :
    isB64url32 (String.ofList (base64url bytes)) = true := by
  have length : (base64url bytes).length = 43 := by rw [length_base64url, size]
  rw [isB64url32, String.toList_ofList, length, Bool.and_eq_true, List.all_eq_true]
  refine ⟨rfl, fun c member => ?_⟩
  have letter := isBase64url_of_mem member
  simp only [isBase64url, Bool.or_eq_true] at letter
  simp only [Char.isDigit, Bool.or_eq_true]
  rcases letter with (((upper | lower) | digit) | underscore) | hyphen
  · exact .inl (.inl (.inr upper))
  · exact .inl (.inl (.inl (.inr lower)))
  · exact .inl (.inl (.inl (.inl digit)))
  · exact .inr underscore
  · exact .inl (.inr hyphen)

/-- What is drawn is an identity. -/
theorem Identity.mint_some (nowMs : ℕ) (draw : Draw) :
    Identity.mint nowMs (some draw) = .ok ⟨requestIdAt nowMs draw.idBits,
      ⟨String.ofList (base64url draw.secret), isB64url32_base64url draw.size⟩⟩ := by
  rw [Identity.mint, PossessionSecret.parse, dif_pos (isB64url32_base64url draw.size)]

theorem Identity.wellFormed_of_mint {nowMs : ℕ} {draw : Option Draw} {identity : Identity}
    (minted : Identity.mint nowMs draw = .ok identity) : identity.WellFormed := by
  cases draw with
  | none => cases minted
  | some draw =>
      rw [Identity.mint_some] at minted
      obtain rfl := Except.ok.inj minted
      exact isUuidShape_hyphenated (length_fromUnixTimestampMillis _ _)

/-! ### The cookie's value -/

/-- No id has a letter that is neither a digit nor a hyphen. -/
theorem not_mem_of_isUuidShape {id : RequestId} (shape : isUuidShape id = true) {c : Char}
    (noDigit : isHexDigit c = false) (noHyphen : c ≠ '-') : c ∉ id.toList := by
  intro member
  rw [isUuidShape, Bool.and_eq_true, List.all_eq_true] at shape
  obtain ⟨i, inside, rfl⟩ := List.getElem_of_mem member
  have here := shape.2 (id.toList[i], i) (List.mem_zipIdx_iff_getElem?.mpr (by simp [inside]))
  simp only at here
  split_ifs at here with hyphen
  · exact noHyphen (by simpa using here)
  · rw [noDigit] at here
    cases here

theorem Identity.parse_eq_some {value : String} {identity : Identity} :
    Identity.parse value = some identity ↔ identity.WellFormed ∧ value = identity.cookieValue := by
  constructor
  · intro parsed
    unfold Identity.parse at parsed
    split at parsed
    · cases parsed
    · next requestId secret split =>
      split_ifs at parsed with shape
      obtain ⟨kept, read, rfl⟩ := Option.map_eq_some_iff.mp parsed
      obtain ⟨-, dot, isDot, whole⟩ := of_splitOnce split
      obtain rfl : dot = '.' := by simpa using isDot
      unfold PossessionSecret.parse at read
      split_ifs at read with wellFormed
      obtain rfl := Option.some.inj read
      refine ⟨shape, String.toList_injective ?_⟩
      simp [Identity.cookieValue, whole]
  · rintro ⟨shape, rfl⟩
    have plain : ∀ c ∈ identity.requestId.toList, (c == '.') = false := by
      intro c member
      by_contra isDot
      obtain rfl : c = '.' := by simpa using isDot
      exact not_mem_of_isUuidShape shape (by decide) (by decide) member
    have halves : splitOnce (· == '.') identity.cookieValue.toList =
        some (identity.requestId.toList, identity.secret.text.toList) := by
      have whole : identity.cookieValue.toList =
          identity.requestId.toList ++ '.' :: identity.secret.text.toList := by
        simp [Identity.cookieValue]
      rw [whole, splitOnce_append plain (by decide)]
    unfold Identity.parse
    rw [halves]
    have shape : isUuidShape identity.requestId = true := shape
    simp only [String.ofList_toList, shape, if_true]
    rw [PossessionSecret.parse, dif_pos identity.secret.wellFormed]
    rfl

theorem Identity.parse_cookieValue {identity : Identity} (shape : identity.WellFormed) :
    Identity.parse identity.cookieValue = some identity :=
  Identity.parse_eq_some.mpr ⟨shape, rfl⟩

/-! ## Cookies -/

/-- The cookie of the identity. -/
def identityCookie : String := "vwr_nojs"

/-- Where it is sent. -/
def identityCookiePath : String := "/v1/"

/-- How long it is kept. -/
def identityMaxAgeSecs : ℕ := 86400

/-- A cookie a response sets. -/
structure SetCookie where
  name : String
  value : String
  path : String
  maxAge : ℕ
  deriving DecidableEq

/-- The header of a cookie. -/
def SetCookie.text (cookie : SetCookie) : String :=
  cookie.name ++ "=" ++ cookie.value ++ "; Path=" ++ cookie.path ++ "; Max-Age=" ++
    cookie.maxAge.repr ++ "; Secure; HttpOnly; SameSite=Lax"

/-- The cookie that stores an identity. -/
def Identity.setCookie (identity : Identity) : SetCookie :=
  ⟨identityCookie, identity.cookieValue, identityCookiePath, identityMaxAgeSecs⟩

/-- The cookie that forgets an identity. -/
def clearIdentityCookie : SetCookie := ⟨identityCookie, "", identityCookiePath, 0⟩

/-- A cookie of a `Cookie` header: what is before the first `=`, and what is behind it. -/
def cookieOf (pair : List Char) : Option (List Char × List Char) :=
  splitOnce (· == '=') (trim isWhitespace pair)

/-- The identity of one cookie. -/
def identityOf (pair : List Char) : Option Identity :=
  match cookieOf pair with
  | none => none
  | some (name, value) =>
      if String.ofList name = identityCookie then Identity.parse (String.ofList value) else none

/-- The identity in a `Cookie` header: the first cookie of its name that is one. -/
def identityFromCookies (header : String) : Option Identity :=
  (header.toList.splitOn ';').findSome? identityOf

/-- What a browser sends of its cookies. -/
def cookieHeader (pairs : List (List Char)) : String :=
  String.ofList (List.intercalate [';', ' '] pairs)

/-- What a browser sends is visible if its cookies are. -/
theorem headerText_cookieHeader {pairs : List (List Char)}
    (visible : ∀ pair ∈ pairs, ∀ c ∈ pair, isVisible c) :
    headerText (cookieHeader pairs) = some (cookieHeader pairs) := by
  refine headerText_of_visible fun c member => ?_
  rw [cookieHeader, String.toList_ofList] at member
  induction pairs with
  | nil => cases member
  | cons first rest ih =>
      have later := ih fun pair inside => visible pair (List.mem_cons_of_mem _ inside)
      cases rest with
      | nil =>
          rw [List.intercalate_singleton] at member
          exact visible first List.mem_cons_self c member
      | cons next rest =>
          rw [List.intercalate_cons_cons, List.mem_append, List.mem_append] at member
          rcases member with (here | blank) | there
          · exact visible first List.mem_cons_self c here
          · have checked : [';', ' '].all isVisible := by decide
            exact List.all_eq_true.mp checked c blank
          · exact later there

/-- A blank before a cookie is trimmed. -/
theorem identityOf_blank (pair : List Char) : identityOf (' ' :: pair) = identityOf pair := by
  have trimmed : trim isWhitespace (' ' :: pair) = trim isWhitespace pair := by
    rw [trim, trim, List.dropWhile_cons_of_pos (by decide)]
  rw [identityOf, identityOf, cookieOf, cookieOf, trimmed]

/-- The cookies of a header, apart from the blanks between them. -/
theorem intercalate_blank (pair : List Char) (pairs : List (List Char)) :
    List.intercalate [';', ' '] (pair :: pairs) =
      List.intercalate [';'] (pair :: pairs.map (' ' :: ·)) := by
  induction pairs generalizing pair with
  | nil => simp
  | cons next pairs ih =>
      rw [List.intercalate_cons_cons, ih next, List.map_cons, List.intercalate_cons_cons]
      cases pairs with
      | nil => simp
      | cons other pairs => simp [List.intercalate_cons_cons]

/-- **The identity in what a browser sends is that of the first of its cookies that is one.** -/
theorem identityFromCookies_eq {pairs : List (List Char)} (apart : ∀ pair ∈ pairs, ';' ∉ pair) :
    identityFromCookies (cookieHeader pairs) = pairs.findSome? identityOf := by
  cases pairs with
  | nil => rfl
  | cons first rest =>
      have plain : ∀ pair ∈ first :: rest.map (' ' :: ·), ';' ∉ pair := by
        intro pair member
        rcases List.mem_cons.mp member with rfl | later
        · exact apart pair List.mem_cons_self
        · obtain ⟨cookie, inside, rfl⟩ := List.mem_map.mp later
          exact List.not_mem_cons_of_ne_of_not_mem (by decide)
            (apart cookie (List.mem_cons_of_mem _ inside))
      rw [identityFromCookies, cookieHeader, String.toList_ofList, intercalate_blank,
        List.splitOn_intercalate ';' plain (List.cons_ne_nil _ _), List.findSome?_cons,
        List.findSome?_cons, List.findSome?_map]
      have blanks : (identityOf ∘ fun pair => ' ' :: pair) = identityOf := funext identityOf_blank
      rw [blanks]

/-- A cookie as a browser sends it. -/
def SetCookie.sent (cookie : SetCookie) : List Char := cookie.name.toList ++ '=' :: cookie.value.toList

/-- The letters of the value of a cookie. -/
theorem letter_of_mem_cookieValue {identity : Identity} (shape : identity.WellFormed) {c : Char}
    (member : c ∈ identity.cookieValue.toList) : isBase64url c = true ∨ c = '.' := by
  rw [Identity.cookieValue, String.toList_append, String.toList_append, List.mem_append,
    List.mem_append] at member
  rcases member with (digits | dot) | secret
  · refine .inl ?_
    by_contra other
    refine not_mem_of_isUuidShape shape ?_ ?_ digits
    · by_contra digit
      refine other ?_
      simp only [isHexDigit, Char.isDigit, Bool.not_eq_false, Bool.or_eq_true, Bool.and_eq_true,
        decide_eq_true_eq] at digit
      simp only [isBase64url, Bool.or_eq_true, Bool.and_eq_true, decide_eq_true_eq]
      rcases digit with (decimal | ⟨lower, upper⟩) | ⟨lower, upper⟩
      · exact .inl (.inl (.inr decimal))
      · exact .inl (.inl (.inl (.inr ⟨lower, Char.le_trans upper (by decide)⟩)))
      · exact .inl (.inl (.inl (.inl ⟨lower, Char.le_trans upper (by decide)⟩)))
    · rintro rfl
      exact other (by decide)
  · exact .inr (List.mem_singleton.mp dot)
  · have letters := identity.secret.wellFormed
    rw [isB64url32, Bool.and_eq_true, List.all_eq_true] at letters
    have letter := letters.2 c secret
    simp only [Char.isDigit, Bool.or_eq_true] at letter
    simp only [isBase64url, Bool.or_eq_true]
    rcases letter with (((digit | lower) | upper) | hyphen) | underscore
    · exact .inl (.inl (.inl (.inr digit)))
    · exact .inl (.inl (.inl (.inl (.inr lower))))
    · exact .inl (.inl (.inl (.inl (.inl upper))))
    · exact .inl (.inr hyphen)
    · exact .inl (.inl (.inr underscore))

/-- Where the letters lie. -/
theorem bounds_of_isBase64url {c : Char} (letter : isBase64url c = true) :
    0x2d ≤ c.toNat ∧ c.toNat ≤ 0x7a := by
  simp only [isBase64url, Bool.or_eq_true, Bool.and_eq_true, decide_eq_true_eq, beq_iff_eq,
    Char.le_def, UInt32.le_iff_toNat_le] at letter
  change 0x2d ≤ c.val.toNat ∧ c.val.toNat ≤ 0x7a
  rcases letter with (((⟨lower, upper⟩ | ⟨lower, upper⟩) | ⟨lower, upper⟩) | rfl) | rfl
  · exact ⟨le_trans (by decide) lower, upper.trans (by decide)⟩
  · exact ⟨le_trans (by decide) lower, upper.trans (by decide)⟩
  · exact ⟨le_trans (by decide) lower, upper.trans (by decide)⟩
  · decide
  · decide

/-- A letter that is visible and neither a blank nor a semicolon. -/
structure Solid (c : Char) : Prop where
  notBlank : isWhitespace c = false
  notEnd : c ≠ ';'
  visible : isVisible c = true

/-- They are all solid. -/
theorem solid_of_letter {c : Char} (letter : isBase64url c = true ∨ c = '.') : Solid c := by
  rcases letter with letter | rfl
  · have bounds := bounds_of_isBase64url letter
    refine ⟨?_, ?_, ?_⟩
    · rw [isWhitespace, decide_eq_false_iff_not]
      omega
    · rintro rfl
      exact absurd letter (by decide)
    · rw [isVisible, decide_eq_true_eq]
      omega
  · exact ⟨by decide, by decide, by decide⟩

/-- The letters of the cookie of an identity. -/
theorem solid_of_mem_sent {identity : Identity} (shape : identity.WellFormed) {c : Char}
    (member : c ∈ identity.setCookie.sent) : Solid c := by
  have name : ∀ c ∈ identityCookie.toList ++ ['='], Solid c := by
    have checked : (identityCookie.toList ++ ['=']).all fun c =>
        !isWhitespace c && c != ';' && isVisible c := by decide
    intro c member
    have solid := List.all_eq_true.mp checked c member
    simp only [Bool.and_eq_true, Bool.not_eq_true', bne_iff_ne] at solid
    exact ⟨solid.1.1, solid.1.2, solid.2⟩
  have whole : identity.setCookie.sent =
      (identityCookie.toList ++ ['=']) ++ identity.cookieValue.toList := by
    rw [List.append_assoc]
    rfl
  rw [whole] at member
  rcases List.mem_append.mp member with here | value
  · exact name c here
  · exact solid_of_letter (letter_of_mem_cookieValue shape value)

/-- **The cookie of an identity is read as that identity.** -/
theorem identityOf_sent {identity : Identity} (shape : identity.WellFormed) :
    identityOf identity.setCookie.sent = some identity := by
  have trimmed : Trimmed isWhitespace identity.setCookie.sent :=
    ⟨fun c first => (solid_of_mem_sent shape (List.mem_of_head? first)).notBlank,
      fun c last => (solid_of_mem_sent shape (List.mem_of_getLast? last)).notBlank⟩
  have plain : ∀ c ∈ identityCookie.toList, (c == '=') = false := by
    have checked : identityCookie.toList.all fun c => !(c == '=') := by decide
    intro c member
    simpa using List.all_eq_true.mp checked c member
  have pair : cookieOf identity.setCookie.sent =
      some (identityCookie.toList, identity.cookieValue.toList) := by
    rw [cookieOf, trim_of_trimmed trimmed]
    exact splitOnce_append plain (by decide) _
  rw [identityOf, pair]
  simp only [String.ofList_toList, if_true]
  exact Identity.parse_cookieValue shape

/-! ## The join -/

/-- The join of an identity, as a text of three fields. -/
def Identity.rawJoin (digestOf : DigestOf) (identity : Identity) (eventId : String) : RawJoin :=
  ⟨identity.requestId, eventId, (digestOf identity.secret).text⟩

/-- A batch takes the join of an identity. -/
theorem accepted_rawJoin {decode : DecodeJoin} {digestOf : DigestOf} {identity : Identity}
    {eventId body : String} (decodes : decode body = some (identity.rawJoin digestOf eventId))
    (shape : identity.WellFormed) (messageId : String) :
    accepted decode eventId [⟨messageId, body⟩] =
      [(messageId, identity.joinMessage digestOf eventId)] := by
  have digest : SecretDigest.parse (digestOf identity.secret).text =
      some (digestOf identity.secret) := by
    rw [SecretDigest.parse, dif_pos (digestOf identity.secret).wellFormed]
  have parsed : parseJoin decode body = some (identity.joinMessage digestOf eventId) := by
    simp only [parseJoin, decodes, Identity.rawJoin, digest, Option.bind_eq_bind, Option.bind_some]
    rfl
  have shape : isUuidShape (identity.joinMessage digestOf eventId).requestId = true := shape
  have same : (identity.joinMessage digestOf eventId).eventId = eventId := rfl
  simp [accepted, classifyRecord, parsed, shape, same]

/-- **What is drawn for a visitor comes back**: the cookie that stores it is read as that identity among
whatever other cookies a browser sends, which are all read where they are visible, and the join that is written for it is taken by a batch, with
the digest of its own secret. -/
theorem minted_comes_back {nowMs : ℕ} {draw : Option Draw} {identity : Identity}
    (minted : Identity.mint nowMs draw = .ok identity) {before after : List (List Char)}
    (apart : ∀ pair ∈ before ++ after, ';' ∉ pair) (others : ∀ pair ∈ before, identityOf pair = none)
    {decode : DecodeJoin} {digestOf : DigestOf} {eventId body : String}
    (decodes : decode body = some (identity.rawJoin digestOf eventId)) (messageId : String) :
    identityFromCookies (cookieHeader (before ++ identity.setCookie.sent :: after)) = some identity ∧
      ((∀ pair ∈ before ++ after, ∀ c ∈ pair, isVisible c) →
        headerText (cookieHeader (before ++ identity.setCookie.sent :: after)) =
          some (cookieHeader (before ++ identity.setCookie.sent :: after))) ∧
      accepted decode eventId [⟨messageId, body⟩] =
        [(messageId, identity.joinMessage digestOf eventId)] := by
  have shape := Identity.wellFormed_of_mint minted
  refine ⟨?_, fun visible => headerText_cookieHeader fun pair member c inside => ?_,
    accepted_rawJoin decodes shape messageId⟩
  swap
  · rcases List.mem_append.mp member with earlier | here
    · exact visible pair (List.mem_append_left _ earlier) c inside
    · rcases List.mem_cons.mp here with rfl | later
      · exact (solid_of_mem_sent shape inside).visible
      · exact visible pair (List.mem_append_right _ later) c inside
  have separate : ∀ pair ∈ before ++ identity.setCookie.sent :: after, ';' ∉ pair := by
    intro pair member
    rcases List.mem_append.mp member with earlier | here
    · exact apart pair (List.mem_append_left _ earlier)
    · rcases List.mem_cons.mp here with rfl | later
      · exact fun inside => (solid_of_mem_sent shape inside).notEnd rfl
      · exact apart pair (List.mem_append_right _ later)
  rw [identityFromCookies_eq separate, List.findSome?_append,
    List.findSome?_eq_none_iff.mpr others, Option.none_or, List.findSome?_cons,
    identityOf_sent shape]

namespace Sample

theorem length_zeros : (List.replicate 32 (0 : UInt8)).length = 32 := rfl

/-- A generator that draws nothing but zeros. -/
def draw : Draw := ⟨fun _ => 0, List.replicate 32 0, length_zeros⟩

/-- What it draws. -/
def drawn : Identity :=
  ⟨requestIdAt 0 draw.idBits, ⟨String.ofList (base64url draw.secret), isB64url32_base64url draw.size⟩⟩

theorem drawn_wellFormed : drawn.WellFormed :=
  Identity.wellFormed_of_mint (Identity.mint_some 0 draw)

theorem isB64url32_digest : isB64url32 "DwBzhbb51LfusnSGBa_hqYSgo7-j8BTQnip4TOnlzRo" = true := by decide

/-- The digest of the secret drawn. -/
def digest : SecretDigest := ⟨"DwBzhbb51LfusnSGBa_hqYSgo7-j8BTQnip4TOnlzRo", isB64url32_digest⟩

/-- The join as it is written. -/
def body : String :=
  "\x7b\"event_id\":\"demo\",\"h\":\"" ++ digest.text ++ "\",\"request_id\":\"" ++
    drawn.requestId ++ "\"\x7d"

/-- The reader of that one text. -/
def decode : DecodeJoin := fun text =>
  if text = body then some (drawn.rawJoin (fun _ => digest) "demo") else none

end Sample

/-- An identity of zeros, between two other cookies. -/
theorem minted_comes_back_sample :
    identityFromCookies (cookieHeader ["other=1".toList, Sample.drawn.setCookie.sent, "x=y".toList]) =
      some Sample.drawn ∧
    headerText (cookieHeader ["other=1".toList, Sample.drawn.setCookie.sent, "x=y".toList]) =
      some (cookieHeader ["other=1".toList, Sample.drawn.setCookie.sent, "x=y".toList]) ∧
    accepted Sample.decode "demo" [⟨"m1", Sample.body⟩] =
      [("m1", Sample.drawn.joinMessage (fun _ => Sample.digest) "demo")] := by
  have apart : ∀ pair ∈ ["other=1".toList] ++ ["x=y".toList], ';' ∉ pair := by decide
  have others : ∀ pair ∈ ["other=1".toList], identityOf pair = none := by decide
  have visible : (["other=1".toList] ++ ["x=y".toList]).all fun pair => pair.all isVisible := by decide
  have decodes : Sample.decode Sample.body = some (Sample.drawn.rawJoin (fun _ => Sample.digest) "demo") :=
    if_pos rfl
  obtain ⟨found, shown, taken⟩ :=
    minted_comes_back (Identity.mint_some 0 Sample.draw) apart others decodes "m1"
  refine ⟨found, shown fun pair member c inside => ?_, taken⟩
  exact List.all_eq_true.mp (List.all_eq_true.mp visible pair member) c inside

end WaitingRoom.NoJs
