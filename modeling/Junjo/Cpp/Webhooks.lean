import Junjo.Core.IsoParse
import Junjo.Cpp.HmacSha256
import Junjo.Cpp.Subscription

/-!
# Webhook deliveries in the C++ SDK

`verifyWebhook` checks the signature of a delivery over the bytes of its body, then reads the signed
timestamp with a parser of its own.
-/

namespace Junjo.Cpp

open Utf8 (Byte)

/-- The bytes of an ASCII literal. -/
def ascii (s : String) : List Byte := s.toList.map fun c => BitVec.ofNat 8 c.toNat

/-! ### Timestamps -/

def isDigit (b : Byte) : Bool := 48 ≤ b.toNat && b.toNat ≤ 57

/-- Exactly `count` digits, after the digits before them, and the rest. -/
def readDigits : ℕ → ℕ → List Byte → Option (ℕ × List Byte)
  | 0, value, text => some (value, text)
  | _ + 1, _, [] => none
  | count + 1, value, b :: text =>
    if isDigit b then readDigits count (value * 10 + (b.toNat - 48)) text else none

/-- One of the bytes allowed here. -/
def readOneOf (allowed : List Byte) : List Byte → Option (List Byte)
  | [] => none
  | b :: text => if b ∈ allowed then some text else none

/-- The loop over the digits of a fraction: their number, the milliseconds of the first three, and
the rest. -/
def readFraction : ℕ → ℕ → List Byte → ℕ × ℕ × List Byte
  | digits, milliseconds, [] => (digits, milliseconds, [])
  | digits, milliseconds, b :: text =>
    if isDigit b then
      readFraction (digits + 1)
        (if digits < 3 then milliseconds * 10 + (b.toNat - 48) else milliseconds) text
    else (digits, milliseconds, b :: text)

/-- The milliseconds of a fraction, if there is one. Fewer than three digits scale up. -/
def readMilliseconds : List Byte → Option (ℕ × List Byte)
  | [] => some (0, [])
  | b :: text =>
    if b = 46 then
      match readFraction 0 0 text with
      | (digits, milliseconds, rest) =>
        if digits = 0 ∨ 9 < digits then none else some (milliseconds * 10 ^ (3 - digits), rest)
    else some (0, b :: text)

/-- The offset from UTC in minutes. A time without one is refused. -/
def readOffset : List Byte → Option (ℤ × List Byte)
  | [] => none
  | b :: text =>
    if b = 90 ∨ b = 122 then some (0, text)
    else if b = 43 ∨ b = 45 then do
      let (hours, text) ← readDigits 2 0 text
      let text ← readOneOf (ascii ":") text
      let (minutes, text) ← readDigits 2 0 text
      if 23 < hours ∨ 59 < minutes then none
      else
        some (if b = 45 then -((hours * 60 + minutes : ℕ) : ℤ) else (hours * 60 + minutes : ℕ),
          text)
    else none

/-- Days from the epoch to a date. -/
def daysFromCivil (year month day : ℤ) : ℤ :=
  let year := if month ≤ 2 then year - 1 else year
  let era := (if 0 ≤ year then year else year - 399).tdiv 400
  let yoe := year - era * 400
  let doy := (153 * (month + if 2 < month then -3 else 9) + 2).tdiv 5 + day - 1
  let doe := yoe * 365 + yoe.tdiv 4 - yoe.tdiv 100 + doy
  era * 146097 + doe - 719468

def isLeapYear (year : ℕ) : Bool := (year % 4 = 0 && year % 100 ≠ 0) || year % 400 = 0

def kDays : List ℕ := [31, 28, 31, 30, 31, 30, 31, 31, 30, 31, 30, 31]

def daysInMonth (year month : ℕ) : ℕ :=
  if month = 2 && isLeapYear year then 29 else kDays.getD (month - 1) 0

def parseIso8601Ms (text : List Byte) : Option ℤ := do
  let (year, text) ← readDigits 4 0 text
  let text ← readOneOf (ascii "-") text
  let (month, text) ← readDigits 2 0 text
  let text ← readOneOf (ascii "-") text
  let (day, text) ← readDigits 2 0 text
  let text ← readOneOf (ascii "Tt") text
  let (hour, text) ← readDigits 2 0 text
  let text ← readOneOf (ascii ":") text
  let (minute, text) ← readDigits 2 0 text
  let text ← readOneOf (ascii ":") text
  let (second, text) ← readDigits 2 0 text
  let (milliseconds, text) ← readMilliseconds text
  let (offset, text) ← readOffset text
  if text ≠ [] then none
  else if month < 1 ∨ 12 < month then none
  else if day < 1 ∨ daysInMonth year month < day then none
  else if 23 < hour ∨ 59 < minute ∨ 59 < second then none
  else
    let days := daysFromCivil year month day
    let utcSeconds := days * 86400 + hour * 3600 + minute * 60 + second - offset * 60
    some (utcSeconds * 1000 + milliseconds)

/-! ### Signatures -/

def kWebhookSignatureScheme : List Byte := ascii "v1"

def kWebhookSignatureHeader : List Byte := ascii "x-junjo-signature"

def kWebhookTimestampHeader : List Byte := ascii "x-junjo-timestamp"

def kWebhookEventIdHeader : List Byte := ascii "x-junjo-event-id"

def kWebhookDeliveryIdHeader : List Byte := ascii "x-junjo-delivery-id"

def signWebhookBody (secret body timestamp : List Byte) : List Byte :=
  kWebhookSignatureScheme ++ ascii "=" ++ toHex (hmacSha256 secret (timestamp ++ ascii "." ++ body))

def constantTimeEqual (a b : List Byte) : Bool :=
  if a.length ≠ b.length then false
  else (List.zip a b).foldl (fun diff p => diff ||| (p.1 ^^^ p.2)) 0 = (0 : Byte)

def toLower (b : Byte) : Byte := if 65 ≤ b.toNat ∧ b.toNat ≤ 90 then b + 32 else b

abbrev WebhookHeaders := List (List Byte × List Byte)

/-- The first header with a name, whatever the case of its letters. -/
def pickHeader (headers : WebhookHeaders) (name : List Byte) : Option (List Byte) :=
  (headers.find? fun h => h.1.map toLower = name.map toLower).map Prod.snd

/-! ### Deliveries -/

inductive WebhookErrorCode
  | webhookSignatureMissing
  | webhookTimestampMissing
  | webhookInvalidSignature
  | webhookTimestampInvalid
  | webhookTimestampOutOfTolerance
  | webhookInvalidBody
deriving DecidableEq

def WebhookErrorCode.toString : WebhookErrorCode → String
  | .webhookSignatureMissing => "webhook_signature_missing"
  | .webhookTimestampMissing => "webhook_timestamp_missing"
  | .webhookInvalidSignature => "webhook_invalid_signature"
  | .webhookTimestampInvalid => "webhook_timestamp_invalid"
  | .webhookTimestampOutOfTolerance => "webhook_timestamp_out_of_tolerance"
  | .webhookInvalidBody => "webhook_invalid_body"

structure WebhookError where
  code : WebhookErrorCode
  message : String
deriving DecidableEq

structure VerifyWebhookOptions where
  tolerance : ℤ := 5 * 60 * 1000
  /-- The clock, in milliseconds since the epoch. -/
  now : ℤ

structure VerifiedWebhook where
  eventType : Text
  eventId : List Byte
  deliveryId : List Byte
  payloadJson : List Byte
deriving DecidableEq

def verifyWebhook (parseJson : List Byte → Option JsonValue) (rawBody : List Byte)
    (headers : WebhookHeaders) (secret : List Byte) (options : VerifyWebhookOptions) :
    Except WebhookError VerifiedWebhook :=
  match pickHeader headers kWebhookSignatureHeader with
  | none => .error ⟨.webhookSignatureMissing, "missing x-junjo-signature header"⟩
  | some signature =>
    match pickHeader headers kWebhookTimestampHeader with
    | none => .error ⟨.webhookTimestampMissing, "missing x-junjo-timestamp header"⟩
    | some timestamp =>
      if !constantTimeEqual signature (signWebhookBody secret rawBody timestamp) then
        .error ⟨.webhookInvalidSignature, "webhook signature does not match"⟩
      else
        match parseIso8601Ms timestamp with
        | none =>
          .error ⟨.webhookTimestampInvalid, "x-junjo-timestamp is not a valid timestamp"⟩
        | some timestampMs =>
          let skewMs := if timestampMs ≤ options.now then options.now - timestampMs
            else timestampMs - options.now
          if options.tolerance < skewMs then
            .error ⟨.webhookTimestampOutOfTolerance,
              "signature timestamp is outside the tolerance window"⟩
          else
            match parseJson rawBody with
            | some (.obj entries) =>
              match entries.lookup (text "type") with
              | some (.str type) =>
                .ok
                  { eventType := type
                    eventId := (pickHeader headers kWebhookEventIdHeader).getD []
                    deliveryId := (pickHeader headers kWebhookDeliveryIdHeader).getD []
                    payloadJson := rawBody }
              | _ => .error ⟨.webhookInvalidBody, "webhook body is missing string field type"⟩
            | _ => .error ⟨.webhookInvalidBody, "webhook body is not a JSON object"⟩

end Junjo.Cpp
