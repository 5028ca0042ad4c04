import Junjo.Core.Fips180
import Junjo.Core.JsonText
import Junjo.Core.Utf8

/-!
# Signed deliveries

What the worker sends for a delivery. The `junjo` format sends the event as it was stored, with
headers that identify the event and the delivery and that sign the body and the time of the attempt.
-/

namespace Junjo.Webhooks

def webhookSignatureScheme : Text := text "v1"

/-- `digest("hex")` -/
def hexText (bytes : List Utf8.Byte) : Text :=
  bytes.flatMap fun b => [hexDigit (b.toNat / 16), hexDigit (b.toNat % 16)]

def signWebhookBody (secret body timestamp : Text) : Text :=
  let message := timestamp ++ text "." ++ body
  let sig := hexText
    (Fips180.hmac Fips180.sha256 64 (Utf8.encodeText secret) (Utf8.encodeText message))
  webhookSignatureScheme ++ text "=" ++ sig

inductive WebhookEndpointFormat
  | junjo
  | discord
  | slack
deriving DecidableEq

/-- A request of the worker. -/
structure WebhookFetchInit where
  headers : List (Text × Text)
  body : Text

/-- A property of a payload that is read as a string. -/
def payloadString (payload : JsonValue) (name : String) : Text :=
  match payload with
  | .obj entries =>
    match entries.lookup (text name) with
    | some (.str value) => value
    | _ => []
  | _ => []

/-- `payload ?? {}` -/
def orEmptyObject : JsonValue → JsonValue
  | .null => .obj []
  | payload => payload

section

variable (formatJunjoEventForDiscord formatJunjoEventForSlack : JsonValue → JsonValue)

/-- The request of `deliverOne`. -/
def deliveryInit (format : WebhookEndpointFormat) (secret deliveryId : Text) (payload : JsonValue)
    (ts : Text) : WebhookFetchInit :=
  let eventId := payloadString payload "id"
  let eventType := payloadString payload "type"
  match format with
  | .discord =>
    { body := Json.stringify (formatJunjoEventForDiscord (orEmptyObject payload))
      headers := [(text "content-type", text "application/json")] }
  | .slack =>
    { body := Json.stringify (formatJunjoEventForSlack (orEmptyObject payload))
      headers := [(text "content-type", text "application/json")] }
  | .junjo =>
    let body := Json.stringify payload
    let signature := signWebhookBody secret body ts
    { body
      headers :=
        [(text "content-type", text "application/json"), (text "x-junjo-event-id", eventId),
          (text "x-junjo-event", eventType), (text "x-junjo-delivery-id", deliveryId),
          (text "x-junjo-timestamp", ts), (text "x-junjo-signature", signature)] }

end

end Junjo.Webhooks
