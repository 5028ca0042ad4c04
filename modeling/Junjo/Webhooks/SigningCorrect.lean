import Junjo.Cpp.WebhooksCorrect
import Junjo.Sdk.Webhooks
import Junjo.Webhooks.Signing

/-!
# Signed deliveries and their verifiers

What the worker signs is accepted by the TypeScript and the C++ SDK while it is fresh, and the two
SDKs give one answer about every request.
-/

namespace Junjo.Webhooks

open IsoDate (Instant InRange civilOf toISOString)
open Utf8 (Byte IsAscii asciiBytes encodeText)

/-! ### Hexadecimal digits -/

lemma hexDigit_spec {n : ℕ} (h : n < 16) :
    (hexDigit n).val < 128 ∧ BitVec.ofNat 8 (hexDigit n).val = Cpp.hexDigitByte n := by
  interval_cases n <;> decide

lemma hexText_spec (bytes : List Byte) :
    IsAscii (hexText bytes) ∧ asciiBytes (hexText bytes) = Cpp.toHex bytes := by
  induction bytes with
  | nil => exact ⟨Utf8.isAscii_nil, rfl⟩
  | cons b bytes ih =>
    have hb := b.isLt
    obtain ⟨hhigh, hhigh'⟩ := hexDigit_spec (show b.toNat / 16 < 16 by omega)
    obtain ⟨hlow, hlow'⟩ := hexDigit_spec (show b.toNat % 16 < 16 by omega)
    constructor
    · intro u hu
      rcases List.mem_append.mp hu with hu | hu
      · rcases List.mem_pair.mp hu with rfl | rfl
        · exact hhigh
        · exact hlow
      · exact ih.1 u hu
    · have htail := ih.2
      simp only [hexText, Cpp.toHex, asciiBytes, List.flatMap_cons, List.map_append, List.map_cons,
        List.map_nil, hhigh', hlow'] at htail ⊢
      rw [htail]

/-- `padStart` writes what `digest("hex")` does. -/
lemma bytesToHex_eq (bytes : List Byte) : Sdk.bytesToHex bytes = hexText bytes := by
  have hdigit : ∀ b : Byte, (if b.toNat < 16 then [48, hexDigit b.toNat]
      else [hexDigit (b.toNat / 16), hexDigit (b.toNat % 16)])
        = [hexDigit (b.toNat / 16), hexDigit (b.toNat % 16)] := by
    intro b
    split_ifs with h
    · rw [Nat.div_eq_of_lt h, Nat.mod_eq_of_lt h]
      rfl
    · rfl
  simp only [Sdk.bytesToHex, hexText, hdigit]

/-- The bytes of an ASCII literal. -/
lemma encodeText_text {s : String} (h : (s.toList.all fun c => c.toNat < 128) = true) :
    encodeText (text s) = Cpp.ascii s := by
  rw [Utf8.encodeText_ascii (Utf8.isAscii_text h), asciiBytes, text, Cpp.ascii, List.map_map]
  apply List.map_congr_left
  intro c hc
  have hlt := of_decide_eq_true (List.all_eq_true.mp h c hc)
  rw [Function.comp_apply, Utf8.ofNat_val (by omega)]

/-! ### Signatures -/

lemma sdk_signWebhookBody {secret : Text} (h : secret ≠ []) (body timestamp : Text) :
    Sdk.signWebhookBody secret body timestamp = .ok (signWebhookBody secret body timestamp) := by
  rw [Sdk.signWebhookBody, Sdk.hmacSha256Hex, if_neg (Utf8.encodeText_ne_nil h), bytesToHex_eq]
  rfl

/-- A text that begins with an ASCII character, after another one. -/
lemma encodeText_message (timestamp body : Text) :
    encodeText (timestamp ++ text "." ++ body)
      = encodeText timestamp ++ Cpp.ascii "." ++ encodeText body := by
  rw [List.append_assoc, show text "." ++ body = 46 :: body from rfl,
    Utf8.encodeText_append_cons timestamp (by decide), Utf8.encodeText_cons_ascii (by decide),
    List.append_assoc]
  rfl

lemma signWebhookBody_spec (secret body timestamp : Text) :
    IsAscii (signWebhookBody secret body timestamp) ∧
      asciiBytes (signWebhookBody secret body timestamp)
        = Cpp.signWebhookBody (encodeText secret) (encodeText body) (encodeText timestamp) := by
  have hscheme : IsAscii (webhookSignatureScheme ++ text "=") ∧
      asciiBytes (webhookSignatureScheme ++ text "=")
        = Cpp.kWebhookSignatureScheme ++ Cpp.ascii "=" :=
    ⟨(Utf8.isAscii_text (by rfl)).append (Utf8.isAscii_text (by rfl)), by decide⟩
  obtain ⟨hhex, hhex'⟩ := hexText_spec (Fips180.hmac Fips180.sha256 64 (encodeText secret)
    (encodeText (timestamp ++ text "." ++ body)))
  refine ⟨hscheme.1.append hhex, ?_⟩
  rw [signWebhookBody, Cpp.signWebhookBody, Cpp.hmacSha256_eq, Utf8.asciiBytes_append, hscheme.2,
    hhex', encodeText_message]

lemma constantTimeEqual_iff (a b : Text) : Sdk.constantTimeEqual a b = true ↔ a = b := by
  rw [Sdk.constantTimeEqual]
  split_ifs with hlength
  · simp only [false_iff]
    rintro rfl
    exact hlength rfl
  · rw [decide_eq_true_eq]
    apply foldl_zip_eq_iff _ (not_not.mp hlength)
    intro d p
    rw [Nat.or_eq_zero_iff, Nat.xor_eq_zero_iff, Fin.val_inj]

/-! ### The body -/

/-- The text of an object is read back from its bytes. -/
lemma decodeText_stringify {entries : List (Text × JsonValue)} (h : Json.Valid (.obj entries)) :
    Utf8.decodeText (encodeText (Json.stringify (.obj entries)))
      = Json.stringify (.obj entries) := by
  obtain ⟨chars, hchars, -⟩ := Json.printable_stringify h
  rw [hchars, encodeText, Utf8.scalars_utf16, Utf8.decodeText_encode, Utf8.dropMark_of_head]
  intro hhead
  obtain ⟨rest, rfl⟩ := List.head?_eq_some_iff.mp hhead
  have hbrace : (Json.stringify (.obj entries)).head? = some 123 := by
    rw [Json.stringify]
    rfl
  rw [hchars] at hbrace
  exact absurd hbrace (by simp [Utf8.utf16, Utf8.utf16Char, Utf8.byteOrderMark])

lemma wireEventType_obj_eq_some {entries : List (Text × JsonValue)} {type : Text} :
    Sdk.wireEventType (.obj entries) = some type ↔
      entries.lookup (text "type") = some (.str type) := by
  rw [Sdk.wireEventType]
  cases entries.lookup (text "type") with
  | none => simp
  | some value => cases value <;> simp

lemma wireEventType_eq_some {payload : JsonValue} {type : Text} :
    Sdk.wireEventType payload = some type ↔
      ∃ entries, payload = .obj entries ∧ entries.lookup (text "type") = some (.str type) := by
  cases payload with
  | obj entries =>
    rw [wireEventType_obj_eq_some]
    simp
  | _ => simp [Sdk.wireEventType]

lemma bind_wireEventType_eq_some {body : Option JsonValue} {type : Text} :
    body.bind Sdk.wireEventType = some type ↔
      ∃ entries, body = some (.obj entries) ∧
        entries.lookup (text "type") = some (.str type) := by
  rw [Option.bind_eq_some_iff]
  constructor
  · rintro ⟨payload, rfl, htype⟩
    obtain ⟨entries, rfl, hlookup⟩ := wireEventType_eq_some.mp htype
    exact ⟨entries, rfl, hlookup⟩
  · rintro ⟨entries, rfl, htype⟩
    exact ⟨_, rfl, wireEventType_eq_some.mpr ⟨entries, rfl, htype⟩⟩

/-! ### Deliveries -/

section

variable {toLowerCase : Text → Text} {dateParse : Text → Option ℤ}
  {dateOf : Option JsonValue → Option Instant} {parseJson : List Byte → Option JsonValue}
  {discord slack : JsonValue → JsonValue} {secret : Text} {tsHeaders : Sdk.WebhookHeaders}
  {cppHeaders : Cpp.WebhookHeaders} {tolerance now : ℤ}

/-- The receivers find the headers of a request under their names. -/
structure Carried (toLowerCase : Text → Text) (init : WebhookFetchInit)
    (tsHeaders : Sdk.WebhookHeaders) (cppHeaders : Cpp.WebhookHeaders) : Prop where
  ts : ∀ h ∈ init.headers, Sdk.pickHeader toLowerCase tsHeaders h.1 = some h.2
  cpp : ∀ h ∈ init.headers, Cpp.pickHeader cppHeaders (encodeText h.1) = some (encodeText h.2)

lemma presentHeader_of_pick {name value : Text} (hvalue : value ≠ [])
    (h : Sdk.pickHeader toLowerCase tsHeaders name = some value) :
    Sdk.presentHeader toLowerCase tsHeaders name = some value := by
  simp [Sdk.presentHeader, h, hvalue]

lemma signWebhookBody_ne_nil (secret body timestamp : Text) :
    signWebhookBody secret body timestamp ≠ [] := by
  simp [signWebhookBody, webhookSignatureScheme, text]

lemma toISOString_ne_nil (t : Instant) : toISOString t ≠ [] := by
  simp [toISOString, IsoDate.Civil.iso, text]

/-- Verdicts of the two SDKs on one request: the same error, or both hand out the body. The C++ SDK
also refuses a body without a type. -/
inductive SameVerdict (rawBody : List Byte) : Except Sdk.VerifyError JsonValue →
    Except Cpp.WebhookError Cpp.VerifiedWebhook → Prop
  | refused {error : Cpp.WebhookError} {code : String} {message : Text}
    (hcode : error.code.toString = code) :
    SameVerdict rawBody (.error (.junjo code message)) (.error error)
  | accepted {payload : JsonValue} {verified : Cpp.VerifiedWebhook}
    (htype : Sdk.wireEventType payload = some verified.eventType)
    (hbody : verified.payloadJson = rawBody) : SameVerdict rawBody (.ok payload) (.ok verified)
  | untyped {payload : JsonValue} {error : Cpp.WebhookError}
    (htype : Sdk.wireEventType payload = none) (hcode : error.code = .webhookInvalidBody) :
    SameVerdict rawBody (.ok payload) (.error error)

end

/-! ### A delivery of a later server -/

section

variable {init : WebhookFetchInit}

/-- The headers of a request as Node hands them over. -/
def nodeHeaders (init : WebhookFetchInit) : Sdk.WebhookHeaders :=
  init.headers.map fun h => (h.1, .str h.2)

def byteHeaders (init : WebhookFetchInit) : Cpp.WebhookHeaders :=
  init.headers.map fun h => (encodeText h.1, encodeText h.2)

lemma pickHeader_map {lower : Text → Text} {headers : List (Text × Text)}
    (hnames : (headers.map fun h => lower h.1).Nodup) {h : Text × Text} (hmem : h ∈ headers) :
    Sdk.pickHeader lower (headers.map fun h => (h.1, .str h.2)) h.1 = some h.2 := by
  induction headers with
  | nil => cases hmem
  | cons first headers ih =>
    rw [List.map_cons, List.nodup_cons] at hnames
    rw [List.map_cons, Sdk.pickHeader]
    rcases List.mem_cons.mp hmem with rfl | hmem
    · simp
    · rw [if_neg, ih hnames.2 hmem]
      intro heq
      exact hnames.1 (List.mem_map.mpr ⟨h, hmem, heq.symm⟩)

lemma cpp_pickHeader_map {headers : List (Text × Text)}
    (hnames : (headers.map fun h => (encodeText h.1).map Cpp.toLower).Nodup) {h : Text × Text}
    (hmem : h ∈ headers) :
    Cpp.pickHeader (headers.map fun h => (encodeText h.1, encodeText h.2)) (encodeText h.1)
      = some (encodeText h.2) := by
  induction headers with
  | nil => cases hmem
  | cons first headers ih =>
    rw [List.map_cons, List.nodup_cons] at hnames
    rw [List.map_cons, Cpp.pickHeader]
    rcases List.mem_cons.mp hmem with rfl | hmem
    · simp
    · rw [List.find?_cons_of_neg]
      · exact ih hnames.2 hmem
      · rw [decide_eq_true_eq]
        intro heq
        exact hnames.1 (List.mem_map.mpr ⟨h, hmem, heq.symm⟩)

/-- Headers with names of their own are carried. -/
lemma carried_of_nodup {lower : Text → Text} (hts : (init.headers.map fun h => lower h.1).Nodup)
    (hcpp : (init.headers.map fun h => (encodeText h.1).map Cpp.toLower).Nodup) :
    Carried lower init (nodeHeaders init) (byteHeaders init) :=
  ⟨fun _ hmem => pickHeader_map hts hmem, fun _ hmem => cpp_pickHeader_map hcpp hmem⟩

end

def dateOfText : Option JsonValue → Option Instant
  | some (.str t) => IsoDate.parseISO t
  | _ => none

def parseBytes (bytes : List Byte) : Option JsonValue := Json.parse (Utf8.decodeText bytes)

/-- An event of a type that the SDK does not know. -/
def laterEvent : List (Text × JsonValue) :=
  [(text "id", .str (text "e")), (text "occurredAt", .str (toISOString 0)),
    (text "type", .str (text "wiki.edited"))]

lemma valid_laterEvent : Json.Valid (.obj laterEvent) := by
  simp [laterEvent, Json.Valid, Json.ValidEntries, text]

def laterDelivery : WebhookFetchInit :=
  deliveryInit id id .junjo (text "s") (text "d") (.obj laterEvent) (toISOString 0)

lemma carried_laterDelivery :
    Carried asciiLower laterDelivery (nodeHeaders laterDelivery) (byteHeaders laterDelivery) := by
  apply carried_of_nodup
  · simp only [laterDelivery, deliveryInit, List.map]
    decide
  · simp only [laterDelivery, deliveryInit, List.map]
    decide

/-- A header that is not empty is present for both. -/
lemma Carried.present {lower : Text → Text} {init : WebhookFetchInit}
    {tsHeaders : Sdk.WebhookHeaders} {cppHeaders : Cpp.WebhookHeaders}
    (h : Carried lower init tsHeaders cppHeaders) {name : String} {value : Text}
    (hmem : (text name, value) ∈ init.headers) (hvalue : value ≠ [])
    (hname : (name.toList.all fun c => c.toNat < 128) = true) :
    Sdk.presentHeader lower tsHeaders (text name) = some value ∧
      Cpp.pickHeader cppHeaders (Cpp.ascii name) = some (encodeText value) := by
  refine ⟨presentHeader_of_pick hvalue (h.ts _ hmem), ?_⟩
  rw [← encodeText_text hname]
  exact h.cpp _ hmem

end Junjo.Webhooks
