import Junjo.Core.Fips180
import Junjo.Sdk.EventDecode

/-!
# Webhook deliveries in the TypeScript SDK

A delivery is verified by its signature over the text of the body, then by the signed timestamp, and
the event is read from the body.
-/

namespace Junjo.Sdk

def webhookSignatureScheme : Text := text "v1"

def webhookDefaultToleranceMs : ℤ := 5 * 60000

/-- A header of a request: a string, an array of strings or `undefined`. -/
inductive HeaderValue
  | str (value : Text)
  | list (values : List Text)
  | undefined

abbrev WebhookHeaders := List (Text × HeaderValue)

inductive RawBody
  | str (body : Text)
  | bytes (body : List Utf8.Byte)

structure VerifyOptions where
  tolerance : ℤ := webhookDefaultToleranceMs
  /-- The clock, in milliseconds since the epoch. -/
  now : ℤ

/-- A `JunjoError` with its code, the `DOMException` of `importKey`, or the error of decoding. -/
inductive VerifyError
  | junjo (code : String) (message : Text)
  | dataError
  | decode (error : DecodeError)

/-- The first value of a header, whatever the case of its name. -/
def pickHeader (toLowerCase : Text → Text) (headers : WebhookHeaders) (name : Text) : Option Text :=
  match headers with
  | [] => none
  | (key, value) :: headers =>
    if toLowerCase key = toLowerCase name then
      match value with
      | .str value => some value
      | .list values => values.head?
      | .undefined => pickHeader toLowerCase headers name
    else pickHeader toLowerCase headers name

def bodyToString : RawBody → Text
  | .str body => body
  | .bytes body => Utf8.decodeText body

/-- `b.toString(16).padStart(2, "0")` for each byte. -/
def bytesToHex (bytes : List Utf8.Byte) : Text :=
  bytes.flatMap fun b =>
    if b.toNat < 16 then [48, hexDigit b.toNat]
    else [hexDigit (b.toNat / 16), hexDigit (b.toNat % 16)]

/-- `importKey` refuses a key without bytes. -/
def hmacSha256Hex (secret message : Text) : Except VerifyError Text :=
  if Utf8.encodeText secret = [] then .error .dataError
  else .ok (bytesToHex
    (Fips180.hmac Fips180.sha256 64 (Utf8.encodeText secret) (Utf8.encodeText message)))

def signWebhookBody (secret body timestamp : Text) : Except VerifyError Text := do
  let sig ← hmacSha256Hex secret (timestamp ++ text "." ++ body)
  .ok (webhookSignatureScheme ++ text "=" ++ sig)

def constantTimeEqual (a b : Text) : Bool :=
  if a.length ≠ b.length then false
  else (List.zip a b).foldl (fun diff p => diff ||| (p.1.val ^^^ p.2.val)) 0 = 0

/-- A header that is there and not empty. -/
def presentHeader (toLowerCase : Text → Text) (headers : WebhookHeaders) (name : Text) :
    Option Text :=
  (pickHeader toLowerCase headers name).filter fun value => value ≠ []

section

variable (toLowerCase : Text → Text) (dateParse : Text → Option ℤ)

def verifyWebhookBody (rawBody : RawBody) (headers : WebhookHeaders) (secret : Text)
    (opts : VerifyOptions) : Except VerifyError JsonValue :=
  match presentHeader toLowerCase headers (text "x-junjo-signature") with
  | none =>
    .error (.junjo "webhook_signature_missing" (text "missing x-junjo-signature header"))
  | some signatureHeader =>
    match presentHeader toLowerCase headers (text "x-junjo-timestamp") with
    | none =>
      .error (.junjo "webhook_timestamp_missing" (text "missing x-junjo-timestamp header"))
    | some timestampHeader => do
      let body := bodyToString rawBody
      let expected ← signWebhookBody secret body timestampHeader
      if !constantTimeEqual signatureHeader expected then
        .error (.junjo "webhook_invalid_signature" (text "webhook signature does not match"))
      else
        match dateParse timestampHeader with
        | none =>
          .error (.junjo "webhook_timestamp_invalid"
            (text "x-junjo-timestamp is not a valid timestamp"))
        | some timestampMs =>
          if opts.tolerance < |opts.now - timestampMs| then
            .error (.junjo "webhook_timestamp_out_of_tolerance"
              (text "signature timestamp is outside the " ++ Json.integerText opts.tolerance
                ++ text "ms tolerance window"))
          else
            match Json.parse body with
            | none => .error (.junjo "webhook_invalid_body" (text "webhook body is not valid JSON"))
            | some payload => .ok payload

variable (dateOf : Option JsonValue → Option IsoDate.Instant)

/-- What `verifyWebhookWithMeta` returns. -/
inductive VerifiedWebhook
  | event (event : JunjoEvent) (eventId deliveryId : Option Text)
  | unknown (eventType : Option Text) (payload : JsonValue) (eventId deliveryId : Option Text)

/-- The type of a payload, when it is an object with a string there. -/
def wireEventType : JsonValue → Option Text
  | .obj entries =>
    match entries.lookup (text "type") with
    | some (.str type) => some type
    | _ => none
  | _ => none

/-- `raw` says to hand out payloads of types that the SDK does not know. -/
def verifyWebhookWithMeta (raw : Bool) (rawBody : RawBody) (headers : WebhookHeaders)
    (secret : Text) (opts : VerifyOptions) : Except VerifyError VerifiedWebhook := do
  let payload ← verifyWebhookBody toLowerCase dateParse rawBody headers secret opts
  let eventId := pickHeader toLowerCase headers (text "x-junjo-event-id")
  let deliveryId := pickHeader toLowerCase headers (text "x-junjo-delivery-id")
  match deserializeEvent dateOf payload with
  | .ok event => .ok (.event event eventId deliveryId)
  | .error error =>
    if raw ∧ error = .unknownEventType then
      .ok (.unknown (wireEventType payload) payload eventId deliveryId)
    else .error (.decode error)

end

end Junjo.Sdk
