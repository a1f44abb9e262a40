import Mathlib.Data.Rat.Cast.Order
import WaitingRoom.Lambda.GenerateToken
import WaitingRoom.Lambda.Read
import WaitingRoom.Lambda.Status
import WaitingRoom.Page.Waiting

/-!
# What the page is answered

The endpoints answer with JSON, in which a field that is not there is left out. A script reads a whole
number as the nearest of its own, so that two large positions may be read as one, but never the later of
two as the earlier. The page takes a poll policy from a status document exactly when the server would have
published it (`adoptPolicy_parsed`).
-/

set_option autoImplicit false

namespace WaitingRoom.Page

open Text Edge

/-! ## Numbers -/

section Numbers

variable {unit m n k : ℕ}

/-- Rounding keeps the order. -/
theorem roundTo_mono (some : 0 < unit) (le : m ≤ n) : roundTo unit m ≤ roundTo unit n := by
  rcases (Nat.div_le_div_right le : m / unit ≤ n / unit).lt_or_eq with apart | same
  · -- a multiple of the unit is between the two
    have between : n / unit * unit ≤ n := Nat.div_mul_le_self n unit
    have upper : roundTo unit m ≤ (m / unit + 1) * unit := by
      rw [roundTo]
      split_ifs
      · exact Nat.mul_le_mul_right unit (Nat.le_succ _)
      · exact le_rfl
    exact upper.trans ((Nat.mul_le_mul_right unit apart).trans (le_roundTo between some))
  · have rests : m % unit ≤ n % unit := by
      have whole := Nat.div_add_mod m unit
      have whole' := Nat.div_add_mod n unit
      rw [same] at whole
      omega
    simp only [roundTo, same]
    split_ifs with down down'
    · exact le_rfl
    · exact Nat.mul_le_mul_right unit (Nat.le_succ _)
    · exact absurd (by omega) down
    · exact le_rfl

/-- Rounding does not pass a multiple of the unit. -/
theorem roundTo_le (some : 0 < unit) (below : n ≤ k * unit) : roundTo unit n ≤ k * unit := by
  have multiple : roundTo unit (k * unit) = k * unit := by
    rw [roundTo, Nat.mul_mod_left, Nat.mul_div_cancel k some, if_pos (.inl (by omega))]
  exact (roundTo_mono some below).trans multiple.le

theorem nearestDouble_of_lt (small : n < 2 ^ 53) : nearestDouble n = n := if_pos small

/-- A power of two that ends in a double's digits is a multiple of its last one. -/
theorem pow_log2 (large : 53 ≤ Nat.log2 n) (k : ℕ) :
    2 ^ (52 + k) * 2 ^ (Nat.log2 n - 52) = 2 ^ (Nat.log2 n + k) := by
  rw [← Nat.pow_add]
  congr 1
  omega

/-- A number is rounded within its binary digits. -/
theorem nearestDouble_within (large : ¬ n < 2 ^ 53) :
    2 ^ Nat.log2 n ≤ nearestDouble n ∧ nearestDouble n ≤ 2 ^ (Nat.log2 n + 1) := by
  have rounded : nearestDouble n = roundTo (2 ^ (Nat.log2 n - 52)) n := if_neg large
  have positive : n ≠ 0 := by omega
  have digits : 53 ≤ Nat.log2 n := (Nat.le_log2 positive).mpr (Nat.not_lt.mp large)
  have some := Nat.two_pow_pos (Nat.log2 n - 52)
  have bottom := pow_log2 digits 0
  have top := pow_log2 digits 1
  have low : 2 ^ Nat.log2 n ≤ n := Nat.log2_self_le positive
  have high : n < 2 ^ (Nat.log2 n + 1) := Nat.lt_log2_self
  simp only [Nat.add_zero] at bottom
  rw [rounded]
  constructor
  · exact bottom ▸ le_roundTo (bottom.le.trans low) some
  · exact top ▸ roundTo_le some (high.le.trans top.ge)

/-- A script does not read the later of two numbers as the earlier. -/
theorem nearestDouble_mono : Monotone nearestDouble := by
  intro m n le
  by_cases small : n < 2 ^ 53
  · rw [nearestDouble_of_lt small, nearestDouble_of_lt (le.trans_lt small)]
    exact le
  · have rounded : nearestDouble n = roundTo (2 ^ (Nat.log2 n - 52)) n := if_neg small
    have positive : n ≠ 0 := by omega
    by_cases small' : m < 2 ^ 53
    · rw [nearestDouble_of_lt small']
      have digits : 53 ≤ Nat.log2 n := (Nat.le_log2 positive).mpr (Nat.not_lt.mp small)
      have bound : 2 ^ 53 ≤ 2 ^ Nat.log2 n := Nat.pow_le_pow_right (by omega) digits
      exact (small'.le.trans bound).trans (nearestDouble_within small).1
    · have rounded' : nearestDouble m = roundTo (2 ^ (Nat.log2 m - 52)) m := if_neg small'
      have digits : Nat.log2 m ≤ Nat.log2 n :=
        (Nat.le_log2 positive).mpr ((Nat.log2_self_le (by omega)).trans le)
      rcases digits.lt_or_eq with fewer | same
      · have bound : 2 ^ (Nat.log2 m + 1) ≤ 2 ^ Nat.log2 n := Nat.pow_le_pow_right (by omega) fewer
        exact ((nearestDouble_within small').2.trans bound).trans (nearestDouble_within small).1
      · rw [rounded, rounded', same]
        exact roundTo_mono (Nat.two_pow_pos _) le

/-- A whole number, as a script reads it. -/
def number (n : ℕ) : JsValue := .number (.finite (nearestDouble n))

end Numbers

/-! ## Objects -/

def text (value : String) : JsValue := .string (utf16 value)

/-- An object of the fields that are there. -/
def objectOf (fields : List (String × Option JsValue)) : JsValue :=
  .object (fields.filterMap fun field => field.2.map fun value => (utf16 field.1, value))

theorem member_objectOf_of_absent {fields : List (String × Option JsValue)} {name : String}
    (absent : name ∉ fields.map Prod.fst) : (objectOf fields).member name = .undefined := by
  have found : (fields.filterMap fun field => field.2.map fun value => (utf16 field.1, value)).find?
      (fun entry => entry.1 = utf16 name) = none := by
    rw [List.find?_eq_none]
    intro entry member same
    obtain ⟨field, inFields, mapped⟩ := List.mem_filterMap.mp member
    obtain ⟨value, -, rfl⟩ := Option.map_eq_some_iff.mp mapped
    have names : field.1 = name := utf16_injective (of_decide_eq_true same)
    exact absent (names ▸ List.mem_map_of_mem inFields)
  rw [objectOf, JsValue.member, found]
  rfl

/-- A field is read back, where no name comes twice. -/
theorem member_objectOf {fields : List (String × Option JsValue)} (distinct : (fields.map Prod.fst).Nodup)
    {name : String} {value : Option JsValue} (there : (name, value) ∈ fields) :
    (objectOf fields).member name = value.getD .undefined := by
  induction fields with
  | nil => cases there
  | cons field fields ih =>
      obtain ⟨first, rest⟩ := List.nodup_cons.mp distinct
      rcases List.mem_cons.mp there with rfl | later
      · cases value with
        | none =>
            have skipped : objectOf ((name, none) :: fields) = objectOf fields := rfl
            rw [skipped, member_objectOf_of_absent first]
            rfl
        | some value =>
            simp [objectOf, JsValue.member]
      · have other : field.1 ≠ name := fun same => first (same ▸ List.mem_map_of_mem later)
        have skipped : (objectOf (field :: fields)).member name = (objectOf fields).member name := by
          rcases field with ⟨key, _ | content⟩
          · rfl
          · have differs : utf16 key ≠ utf16 name := fun same => other (utf16_injective same)
            simp [objectOf, JsValue.member, differs]
        rw [skipped, ih rest later]

/-! ## Replies -/

/-- The serving state as it is published. -/
def servingText : ServingState → String
  | .running => "running"
  | .paused => "paused"
  | .closed => "closed"
  | .failOpen => "fail_open"

theorem servingText_injective : Function.Injective servingText := by
  intro first second same
  cases first <;> cases second <;> first | rfl | exact absurd same (by decide)

/-- The fields of a poll policy. -/
def pollPolicyFields (policy : PollPolicy) : List (String × Option JsValue) :=
  [("floor_ms", some (number policy.floorMs)),
    ("ceiling_ms", some (number policy.ceilingMs)),
    ("divisor", some (number policy.divisor))]

def pollPolicyBody (policy : PollPolicy) : JsValue := objectOf (pollPolicyFields policy)

/-- The fields of a document. -/
def statusFields (response : StatusResponse) : List (String × Option JsValue) :=
  [("event_id", some (text response.eventId)),
    ("phase", some (text response.phase.asWireStr)),
    ("serving_state", some (text (servingText response.servingState))),
    ("serving_position", some (number response.servingPosition)),
    ("participant_count", response.participantCount.map number),
    ("prequeue_offsets", response.prequeueOffsets.map fun offsets =>
      .array ((List.finRange shards).map fun shard => number (offsets shard))),
    ("shuffle_seed", response.shuffleSeed.map text),
    ("message", response.message.map text),
    ("target_rate", response.targetRate.map number),
    ("poll_policy", response.pollPolicy.map pollPolicyBody),
    ("starts_at", response.startsAt.map number)]

/-- The document, as it is sent. -/
def statusBody (response : StatusResponse) : JsValue := objectOf (statusFields response)

/-- The body of an error. -/
def errorBody (error : String) : JsValue := objectOf [("error", some (text error))]

/-- What `/v1/status` answers. -/
def statusAnswer : StatusReply → ℕ × JsValue
  | .document response => (200, statusBody response)
  | .eventNotFound => (404, errorBody "event not found")

/-- What `/v1/queue_num` answers. -/
def queueNumAnswer (reply : QueueNumReply) : ℕ × JsValue :=
  (reply.status,
    match reply with
    | .position position liveJoin =>
        objectOf [("position", some (number position)), ("live_join", some (.bool liveJoin))]
    | .eventNotFound | .notRegistered | .notOpen | .corrupt => errorBody (reply.error.getD ""))

/-- The status of a refusal: 425 is to keep polling, everything else to stop and show why. -/
def refusalStatus : Denied → ℕ
  | .stillQueued _ _ => 425
  | .notAdmitting | .notOpen => 409
  | .notRegistered => 404
  | .notHolder => 403
  | .corrupt => 500

/-- The place and the cursor of a refusal that tells them. -/
def refusalPlaces : Denied → Option (ℕ × ℕ)
  | .stillQueued position serving => some (position, serving)
  | .notRegistered | .notAdmitting | .notOpen | .corrupt | .notHolder => none

/-- What `/v1/generate_token` answers. -/
def tokenAnswer : Admission → ℕ × JsValue
  | .admitted position expiresAt _ =>
      (200, objectOf
        [("admitted", some (.bool true)), ("position", some (number position)),
          ("expires_at", some (number expiresAt))])
  | .eventNotFound => (404, errorBody "event not found")
  | .refused denied =>
      (refusalStatus denied, objectOf
        [("admitted", some (.bool false)), ("error", some (text denied.message)),
          ("position", (refusalPlaces denied).map fun places => number places.1),
          ("serving_position", (refusalPlaces denied).map fun places => number places.2)])
  | .signFailed =>
      (500, objectOf [("admitted", some (.bool false)), ("error", some (text "try again"))])

/-! ## What the page reads of them -/

section Reading

variable {response : StatusResponse}

/-- A document names every field once. -/
theorem statusFields_nodup : ((statusFields response).map Prod.fst).Nodup := by
  have names : (statusFields response).map Prod.fst =
      ["event_id", "phase", "serving_state", "serving_position", "participant_count",
        "prequeue_offsets", "shuffle_seed", "message", "target_rate", "poll_policy", "starts_at"] := rfl
  rw [names]
  decide

/-- A field of a document is read back. -/
theorem member_statusBody {name : String} {value : Option JsValue}
    (there : (name, value) ∈ statusFields response) :
    (statusBody response).member name = value.getD .undefined :=
  member_objectOf statusFields_nodup there

theorem servingPosition_statusBody :
    (statusBody response).member "serving_position" =
      number response.servingPosition := by
  have there : ("serving_position", some (number response.servingPosition)) ∈
      statusFields response := by simp [statusFields]
  exact member_statusBody there

theorem servingState_statusBody :
    (statusBody response).member "serving_state" = text (servingText response.servingState) := by
  have there : ("serving_state", some (text (servingText response.servingState))) ∈
      statusFields response := by simp [statusFields]
  exact member_statusBody there

theorem pollPolicy_statusBody :
    (statusBody response).member "poll_policy" =
      (response.pollPolicy.map pollPolicyBody).getD .undefined := by
  have there : ("poll_policy", response.pollPolicy.map pollPolicyBody) ∈
      statusFields response := by simp [statusFields]
  exact member_statusBody there

/-- A script reads a text of the document as that text only. -/
theorem isText_text {value expected : String} : isText (text value) expected ↔ value = expected := by
  simp [isText, text, JsValue.strictEquals, utf16_injective.eq_iff]

/-- The number of a reply that has one. -/
theorem position_queueNumAnswer {position : ℕ} {liveJoin : Bool} :
    (queueNumAnswer (.position position liveJoin)).2.member "position" =
      number position := by
  have distinct : ([("position", some (number position)), ("live_join", some (.bool liveJoin))].map
      Prod.fst).Nodup := by simp
  exact member_objectOf distinct List.mem_cons_self

/-- Only an answer with a number has the status of one. -/
theorem queueNumAnswer_status {reply : QueueNumReply} (found : (queueNumAnswer reply).1 = 200) :
    ∃ position liveJoin, reply = .position position liveJoin := by
  cases reply with
  | position position liveJoin => exact ⟨position, liveJoin, rfl⟩
  | _ => cases found

/-- Only an admission has the status of one. -/
theorem tokenAnswer_status {admission : Admission} (found : (tokenAnswer admission).1 = 200) :
    ∃ position expiresAt credential, admission = .admitted position expiresAt credential := by
  cases admission with
  | admitted position expiresAt credential => exact ⟨position, expiresAt, credential, rfl⟩
  | refused denied => cases denied <;> cases found
  | eventNotFound => cases found
  | signFailed => cases found

end Reading

/-! ## The poll policy -/

/-- The policy of a page that takes a published one. -/
def ofPublished (policy : PollPolicy) : Policy := ⟨policy.floorMs, policy.ceilingMs, policy.divisor⟩

section Adopting

/-- A whole number between its bounds is read. -/
theorem num_of_within {n : ℕ} {lo hi : ℚ} (small : n < 2 ^ 53) (within : lo ≤ n ∧ n ≤ hi) :
    num (number n) lo hi = some (n : ℚ) := by
  rw [number, nearestDouble_of_lt small, num, if_pos within]

theorem num_of_outside {n : ℕ} {lo hi : ℚ} (small : n < 2 ^ 53) (outside : ¬ (lo ≤ n ∧ n ≤ hi)) :
    num (number n) lo hi = none := by
  rw [number, nearestDouble_of_lt small, num, if_neg outside]

/-- A number of 32 bits is one that a script reads exactly. -/
theorem small_of_parsed {value : Option String} {n : ℕ} (parsed : value.bind parseU32 = some n) :
    n < 2 ^ 53 := by
  obtain ⟨digits, -, parsed⟩ := Option.bind_eq_some_iff.mp parsed
  unfold parseU32 at parsed
  dsimp only at parsed
  split_ifs at parsed with isNumber small
  obtain rfl := Option.some.inj parsed
  rw [u32Bound] at small
  omega

/-- The three numbers of a policy, as they are read. -/
theorem member_pollPolicyBody {policy : PollPolicy} {name : String} {value : Option JsValue}
    (there : (name, value) ∈ pollPolicyFields policy) :
    (pollPolicyBody policy).member name = value.getD .undefined := by
  refine member_objectOf ?_ there
  have names : (pollPolicyFields policy).map Prod.fst = ["floor_ms", "ceiling_ms", "divisor"] := rfl
  rw [names]
  decide

/-- The three numbers of a policy are below what a script reads exactly. -/
structure Small (policy : PollPolicy) : Prop where
  floor : policy.floorMs < 2 ^ 53
  ceiling : policy.ceilingMs < 2 ^ 53
  divisor : policy.divisor < 2 ^ 53

variable {policy : PollPolicy} {held : Policy}

theorem member_floorMs :
    (pollPolicyBody policy).member "floor_ms" = number policy.floorMs := by
  have there : ("floor_ms", some (number policy.floorMs)) ∈ pollPolicyFields policy := by
    simp [pollPolicyFields]
  exact member_pollPolicyBody there

theorem member_ceilingMs :
    (pollPolicyBody policy).member "ceiling_ms" = number policy.ceilingMs := by
  have there : ("ceiling_ms", some (number policy.ceilingMs)) ∈ pollPolicyFields policy := by
    simp [pollPolicyFields]
  exact member_pollPolicyBody there

theorem member_divisor :
    (pollPolicyBody policy).member "divisor" = number policy.divisor := by
  have there : ("divisor", some (number policy.divisor)) ∈ pollPolicyFields policy := by
    simp [pollPolicyFields]
  exact member_pollPolicyBody there

/-- A sane policy is taken. -/
theorem adoptPolicy_of_sane (sane : policy.Sane) :
    adoptPolicy held (pollPolicyBody policy) = ofPublished policy := by
  obtain ⟨floor, ceiling, divisor, clamp⟩ := sane
  simp only [minIntervalMs, maxIntervalMs, maxDivisor] at floor ceiling divisor
  have readFloor : num (number policy.floorMs) 1000 300000 = some (policy.floorMs : ℚ) :=
    num_of_within (by omega) (by exact_mod_cast floor)
  have readCeiling : num (number policy.ceilingMs) 1000 300000 = some (policy.ceilingMs : ℚ) :=
    num_of_within (by omega) (by exact_mod_cast ceiling)
  have readDivisor : num (number policy.divisor) 1 1000 = some (policy.divisor : ℚ) :=
    num_of_within (by omega) (by exact_mod_cast divisor)
  have upright : ¬ (policy.ceilingMs : ℚ) < policy.floorMs := by exact_mod_cast clamp.not_gt
  simp only [adoptPolicy, member_floorMs, member_ceilingMs, member_divisor, readFloor, readCeiling,
    readDivisor, if_neg upright, ofPublished]

/-- What the page takes is sane. -/
theorem sane_of_adopted (small : Small policy) {floor ceiling divisor : ℚ}
    (readFloor : num (number policy.floorMs) 1000 300000 = some floor)
    (readCeiling : num (number policy.ceilingMs) 1000 300000 = some ceiling)
    (readDivisor : num (number policy.divisor) 1 1000 = some divisor)
    (clamp : ¬ ceiling < floor) : policy.Sane := by
  have within : ∀ {n : ℕ} {lo hi value : ℚ}, n < 2 ^ 53 → num (number n) lo hi = some value →
      value = n ∧ lo ≤ n ∧ n ≤ hi := by
    intro n lo hi value small read
    by_cases inside : lo ≤ n ∧ n ≤ hi
    · rw [num_of_within small inside] at read
      exact ⟨(Option.some.inj read).symm, inside⟩
    · rw [num_of_outside small inside] at read
      cases read
  obtain ⟨rfl, floorIn⟩ := within small.floor readFloor
  obtain ⟨rfl, ceilingIn⟩ := within small.ceiling readCeiling
  obtain ⟨rfl, divisorIn⟩ := within small.divisor readDivisor
  refine ⟨?_, ?_, ?_, ?_⟩
  · exact_mod_cast floorIn
  · exact_mod_cast ceilingIn
  · exact_mod_cast divisorIn
  · exact_mod_cast not_lt.mp clamp

/-- Any other policy is not. -/
theorem adoptPolicy_of_not_sane (small : Small policy) (refused : ¬ policy.Sane) :
    adoptPolicy held (pollPolicyBody policy) = held := by
  rw [adoptPolicy, member_floorMs, member_ceilingMs, member_divisor]
  split
  next floor ceiling divisor readFloor readCeiling readDivisor =>
    refine if_pos ?_
    by_contra clamp
    exact refused (sane_of_adopted small readFloor readCeiling readDivisor clamp)
  next => rfl

/-- **The page takes a policy exactly when the server publishes it**: both hold its numbers against the
same bounds. -/
theorem adoptPolicy_parsed {floorMs ceilingMs divisor : Option String}
    (readFloor : floorMs.bind parseU32 = some policy.floorMs)
    (readCeiling : ceilingMs.bind parseU32 = some policy.ceilingMs)
    (readDivisor : divisor.bind parseU32 = some policy.divisor) :
    adoptPolicy held (pollPolicyBody policy) =
      ((parsePollPolicy floorMs ceilingMs divisor).map ofPublished).getD held := by
  by_cases sane : policy.Sane
  · rw [parsePollPolicy_eq_some.mpr ⟨readFloor, readCeiling, readDivisor, sane⟩]
    exact adoptPolicy_of_sane sane
  · have small : Small policy :=
      ⟨small_of_parsed readFloor, small_of_parsed readCeiling, small_of_parsed readDivisor⟩
    have unpublished : parsePollPolicy floorMs ceilingMs divisor = none := by
      rw [Option.eq_none_iff_forall_ne_some]
      intro other published
      obtain ⟨sameFloor, sameCeiling, sameDivisor, there⟩ := parsePollPolicy_eq_some.mp published
      rw [readFloor] at sameFloor
      rw [readCeiling] at sameCeiling
      rw [readDivisor] at sameDivisor
      have same : policy = other := by
        cases policy
        cases other
        simp_all
      exact sane (same ▸ there)
    rw [unpublished]
    exact adoptPolicy_of_not_sane small sane

end Adopting

end WaitingRoom.Page
