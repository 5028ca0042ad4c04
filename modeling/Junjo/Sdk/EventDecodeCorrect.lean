import Junjo.Sdk.EventDecode

/-!
# The SDK reads the events of group streams

Every event that the server writes to a group's stream is decoded to one of its type and id.
-/

namespace Junjo.Sdk

open Events (GroupEventBody JunjoEventType PublicGroup PublicGroupRelationship PublicInvitation
  PublicRole ServerDate dateOrNull texts)
open Export (object)
open IsoDate (Instant)

/-- `new Date` reads what `toISOString` writes. -/
def ReadsDates (dateOf : Option JsonValue → Option Instant) : Prop :=
  ∀ d : ServerDate, dateOf (some (Events.date d)) = some d.val

section

variable {dateOf : Option JsonValue → Option Instant} {name : String} {value : Option JsonValue}
  {fields : List (String × JsonValue)}

/-! ### Fields -/

/-- A field that is read without an error. -/
def FieldReader.Reads (dateOf : Option JsonValue → Option Instant) (name : String)
    (value : Option JsonValue) (reader : FieldReader) : Prop :=
  ∃ r, reader.read dateOf name value = .ok r

def EventReader.Reads (dateOf : Option JsonValue → Option Instant) (name : String)
    (value : Option JsonValue) (reader : EventReader) : Prop :=
  ∃ r, reader.read dateOf name value = .ok r

open FieldReader EventReader

@[simp] lemma reads_copied : copied.Reads dateOf name value := ⟨_, rfl⟩

@[simp] lemma reads_copiedIfSent : copiedIfSent.Reads dateOf name value := ⟨_, rfl⟩

@[simp] lemma reads_copiedOrEmptyObject : copiedOrEmptyObject.Reads dateOf name value := by
  rcases value with - | (_ | _) <;> exact ⟨_, rfl⟩

lemma reads_date (hdate : ReadsDates dateOf) (d : ServerDate) :
    FieldReader.date.Reads dateOf name (some (Events.date d)) := by
  refine ⟨some (.date d.val), ?_⟩
  rw [FieldReader.read, parseWireDate, hdate d]
  rfl

lemma reads_dateOrNull (hdate : ReadsDates dateOf) (d : Option ServerDate) :
    FieldReader.dateOrNull.Reads dateOf name (some (dateOrNull d)) := by
  cases d with
  | none => exact ⟨_, rfl⟩
  | some d => exact reads_date hdate d

lemma mapM_ok {α β : Type} {f : α → Except DecodeError β} {l : List α}
    (h : ∀ a ∈ l, ∃ b, f a = .ok b) : ∃ bs, l.mapM f = .ok bs := by
  induction l with
  | nil => exact ⟨[], rfl⟩
  | cons a l ih =>
    obtain ⟨b, hb⟩ := h a List.mem_cons_self
    obtain ⟨bs, hbs⟩ := ih fun a ha => h a (List.mem_cons_of_mem _ ha)
    exact ⟨b :: bs, by rw [List.mapM_cons, hb, hbs]; rfl⟩

lemma mapItems_ok {f : JsonValue → Except DecodeError SdkValue} (items : List JsonValue)
    (h : ∀ item ∈ items, ∃ v, f item = .ok v) : ∃ v, mapItems f (some (.arr items)) = .ok v := by
  obtain ⟨vs, hvs⟩ := mapM_ok h
  exact ⟨.items vs, by rw [mapItems, hvs]; rfl⟩

lemma reads_mapped (l : List Text) : mapped.Reads dateOf name (some (texts l)) := by
  obtain ⟨v, hv⟩ := mapItems_ok (f := fun item => .ok (.json item)) (l.map JsonValue.str)
    fun item _ => ⟨_, rfl⟩
  exact ⟨some v, by rw [FieldReader.read, texts, hv]; rfl⟩

lemma reads_mappedOrEmpty (l : List Text) : mappedOrEmpty.Reads dateOf name (some (texts l)) := by
  have hmapped : mapped.Reads dateOf name (some (texts l)) := reads_mapped l
  exact hmapped

lemma reads_entriesOrEmpty (l : List Events.PermissionEntry) :
    entriesOrEmpty.Reads dateOf name (some (.arr (l.map Events.PermissionEntry.json))) := by
  obtain ⟨v, hv⟩ := mapItems_ok (f := deserializePermissionEntry)
    (l.map Events.PermissionEntry.json) (by
      intro item hitem
      obtain ⟨e, -, rfl⟩ := List.mem_map.mp hitem
      exact ⟨_, rfl⟩)
  have hitems : orEmpty (some (.arr (l.map Events.PermissionEntry.json)))
      = some (.arr (l.map Events.PermissionEntry.json)) := rfl
  exact ⟨some v, by rw [FieldReader.read, hitems, hv]; rfl⟩

/-- An object whose fields are read one after the other. -/
lemma readObject_ok {entries : List (Text × JsonValue)} {readers : List (String × FieldReader)}
    (h : ∀ f ∈ readers, f.2.Reads dateOf f.1 (entries.lookup (text f.1))) :
    ∃ l, readObject dateOf (some (.obj entries)) readers = .ok l := by
  induction readers with
  | nil => exact ⟨[], rfl⟩
  | cons f readers ih =>
    obtain ⟨r, hr⟩ := h f List.mem_cons_self
    obtain ⟨l, hl⟩ := ih fun f hf => h f (List.mem_cons_of_mem _ hf)
    refine ⟨(r.toList.map fun value => (text f.1, value)) ++ l, ?_⟩
    rw [readObject, prop]
    simp only [Bind.bind, Except.bind, hr, hl]

lemma readEvent_ok {entries : List (Text × JsonValue)} {readers : List (String × EventReader)}
    (h : ∀ f ∈ readers, f.2.Reads dateOf f.1 (entries.lookup (text f.1))) :
    ∃ l, readEvent dateOf (some (.obj entries)) readers = .ok l := by
  induction readers with
  | nil => exact ⟨[], rfl⟩
  | cons f readers ih =>
    obtain ⟨r, hr⟩ := h f List.mem_cons_self
    obtain ⟨l, hl⟩ := ih fun f hf => h f (List.mem_cons_of_mem _ hf)
    refine ⟨(r.toList.map fun value => (text f.1, value)) ++ l, ?_⟩
    rw [readEvent, prop]
    simp only [Bind.bind, Except.bind, hr, hl]

/-- A field of a valid object. -/
lemma lookup_fields (hvalid : Json.Valid (Export.object fields)) {v : JsonValue}
    (h : (name, v) ∈ fields) :
    (fields.map fun f => (text f.1, f.2)).lookup (text name) = some v := by
  rw [Export.object, Json.Valid] at hvalid
  have hkeys := hvalid.1
  clear hvalid
  induction fields with
  | nil => cases h
  | cons f fields ih =>
    rw [List.map_cons, List.map_cons] at hkeys
    obtain ⟨hf, hkeys⟩ := List.nodup_cons.mp hkeys
    rw [List.map_cons, List.lookup_cons]
    rcases List.mem_cons.mp h with rfl | h
    · rw [beq_self_eq_true]
    · have hne : (text name == text f.1) = false := by
        rw [beq_eq_false_iff_ne]
        intro heq
        refine hf ?_
        rw [← heq]
        exact List.mem_map.mpr ⟨_, List.mem_map.mpr ⟨_, h, rfl⟩, rfl⟩
      rw [hne]
      exact ih h hkeys

lemma FieldReader.Reads.of_mem {reader : FieldReader} {v : JsonValue}
    (h : reader.Reads dateOf name (some v)) (hvalid : Json.Valid (Export.object fields))
    (hmem : (name, v) ∈ fields) :
    reader.Reads dateOf name ((fields.map fun f => (text f.1, f.2)).lookup (text name)) := by
  rwa [lookup_fields hvalid hmem]

lemma EventReader.Reads.of_mem {reader : EventReader} {v : JsonValue}
    (h : reader.Reads dateOf name (some v)) (hvalid : Json.Valid (Export.object fields))
    (hmem : (name, v) ∈ fields) :
    reader.Reads dateOf name ((fields.map fun f => (text f.1, f.2)).lookup (text name)) := by
  rwa [lookup_fields hvalid hmem]

/-- The fields of an object that its readers read. -/
def ReadFields (dateOf : Option JsonValue → Option Instant) (fields : List (String × JsonValue))
    (readers : List (String × FieldReader)) : Prop :=
  ∀ f ∈ readers, f.2.Reads dateOf f.1
    ((fields.map fun f => (text f.1, f.2)).lookup (text f.1))

lemma ReadFields.reads_object {readers : List (String × FieldReader)}
    (h : ReadFields dateOf fields readers) :
    (EventReader.object readers).Reads dateOf name (some (Export.object fields)) := by
  obtain ⟨l, hl⟩ := readObject_ok h
  exact ⟨some (.fields l), by rw [EventReader.read, Export.object, hl]; rfl⟩

/-! ### Objects of events -/

lemma reads_member (hdate : ReadsDates dateOf) (m : Events.PublicMember) :
    (EventReader.object memberFields).Reads dateOf name (some m.json) := by
  refine ReadFields.reads_object ?_
  simp only [ReadFields, memberFields, List.forall_mem_cons, reads_copied, reads_copiedIfSent,
    true_and, List.not_mem_nil, false_implies, implies_true, and_true]
  exact ⟨(reads_mapped m.roles).of_mem (Events.valid_member m) (by simp),
    (reads_date hdate m.joinedAt).of_mem (Events.valid_member m) (by simp),
    (reads_dateOrNull hdate m.bannedUntil).of_mem (Events.valid_member m) (by simp)⟩

lemma reads_invitation (hdate : ReadsDates dateOf) (i : PublicInvitation) :
    (EventReader.object invitationFields).Reads dateOf name (some i.json) := by
  refine ReadFields.reads_object ?_
  simp only [ReadFields, invitationFields, List.forall_mem_cons, reads_copied, true_and,
    List.not_mem_nil, false_implies, implies_true, and_true]
  exact ⟨(reads_date hdate i.createdAt).of_mem (Events.valid_invitation i) (by simp),
    (reads_dateOrNull hdate i.expiresAt).of_mem (Events.valid_invitation i) (by simp),
    (reads_dateOrNull hdate i.usedAt).of_mem (Events.valid_invitation i) (by simp)⟩

lemma reads_role (hdate : ReadsDates dateOf) (r : PublicRole) :
    (EventReader.object roleFields).Reads dateOf name (some r.json) := by
  refine ReadFields.reads_object ?_
  simp only [ReadFields, roleFields, List.forall_mem_cons, reads_copied, reads_copiedOrEmptyObject,
    true_and, List.not_mem_nil, false_implies, implies_true, and_true]
  exact ⟨(reads_entriesOrEmpty r.entries).of_mem (Events.valid_role r) (by simp),
    (reads_mappedOrEmpty r.parents).of_mem (Events.valid_role r) (by simp),
    (reads_date hdate r.createdAt).of_mem (Events.valid_role r) (by simp)⟩

lemma reads_group (hdate : ReadsDates dateOf) (g : PublicGroup) :
    (EventReader.object groupFields).Reads dateOf name (some g.json) := by
  refine ReadFields.reads_object ?_
  simp only [ReadFields, groupFields, List.forall_mem_cons, reads_copied, true_and,
    List.not_mem_nil, false_implies, implies_true, and_true]
  exact ⟨(reads_date hdate g.createdAt).of_mem (Events.valid_group g) (by simp),
    (reads_date hdate g.updatedAt).of_mem (Events.valid_group g) (by simp),
    (reads_dateOrNull hdate g.softDeletedAt).of_mem (Events.valid_group g) (by simp)⟩

lemma reads_relationship (hdate : ReadsDates dateOf) (r : PublicGroupRelationship) :
    (EventReader.object relationshipFields).Reads dateOf name (some r.json) := by
  refine ReadFields.reads_object ?_
  simp only [ReadFields, relationshipFields, List.forall_mem_cons, reads_copied, true_and,
    List.not_mem_nil, false_implies, implies_true, and_true]
  exact (reads_date hdate r.since).of_mem (Events.valid_relationship r) (by simp)

/-! ### Events -/

lemma reads_field {reader : FieldReader} (h : reader.Reads dateOf name value) :
    (EventReader.field reader).Reads dateOf name value := h

@[simp] lemma reads_field_copied : (EventReader.field copied).Reads dateOf name value := ⟨_, rfl⟩

@[simp] lemma reads_field_copiedIfSent : (EventReader.field copiedIfSent).Reads dateOf name value :=
  ⟨_, rfl⟩

/-- The fields of an event that its type's readers read. -/
lemma reads_body (hdate : ReadsDates dateOf) (e : Events.GroupEvent) :
    ∀ f ∈ eventFields e.body.type, f.2.Reads dateOf f.1
      ((e.fields.map fun f => (text f.1, f.2)).lookup (text f.1)) := by
  obtain ⟨id, occurredAt, gameId, groupId, body, hexId⟩ := e
  have hvalid := Events.GroupEvent.valid_json ⟨id, occurredAt, gameId, groupId, body, hexId⟩
  cases body with
  | memberJoined userId member memberVersion =>
    simp only [GroupEventBody.type, eventFields, List.forall_mem_cons, reads_field_copied,
      true_and, List.not_mem_nil, false_implies, implies_true, and_true]
    exact (reads_member hdate member).of_mem hvalid
      (by simp [Events.GroupEvent.fields, GroupEventBody.fields])
  | memberInvited invitation =>
    simp only [GroupEventBody.type, eventFields, List.forall_mem_cons, reads_field_copied,
      true_and, List.not_mem_nil, false_implies, implies_true, and_true]
    exact (reads_invitation hdate invitation).of_mem hvalid
      (by simp [Events.GroupEvent.fields, GroupEventBody.fields])
  | memberUpdated userId changed memberVersion =>
    simp only [GroupEventBody.type, eventFields, List.forall_mem_cons, reads_field_copied,
      true_and, List.not_mem_nil, false_implies, implies_true, and_true]
    exact (reads_field (reads_mapped changed)).of_mem hvalid
      (by simp [Events.GroupEvent.fields, GroupEventBody.fields])
  | memberBanned userId reason bannedUntil memberVersion =>
    simp only [GroupEventBody.type, eventFields, List.forall_mem_cons, reads_field_copied,
      true_and, List.not_mem_nil, false_implies, implies_true, and_true]
    exact (reads_field (reads_dateOrNull hdate bannedUntil)).of_mem hvalid
      (by simp [Events.GroupEvent.fields, GroupEventBody.fields])
  | roleCreated role =>
    simp only [GroupEventBody.type, eventFields, List.forall_mem_cons, reads_field_copied,
      true_and, List.not_mem_nil, false_implies, implies_true, and_true]
    exact (reads_role hdate role).of_mem hvalid
      (by simp [Events.GroupEvent.fields, GroupEventBody.fields])
  | roleChanged userId added removed actorUserId memberVersion =>
    simp only [GroupEventBody.type, eventFields, List.forall_mem_cons, reads_field_copied,
      true_and, List.not_mem_nil, false_implies, implies_true, and_true]
    exact ⟨(reads_field (reads_mapped added)).of_mem hvalid
        (by simp [Events.GroupEvent.fields, GroupEventBody.fields]),
      (reads_field (reads_mapped removed)).of_mem hvalid
        (by simp [Events.GroupEvent.fields, GroupEventBody.fields])⟩
  | roleUpdated roleId changed =>
    simp only [GroupEventBody.type, eventFields, List.forall_mem_cons, reads_field_copied,
      true_and, List.not_mem_nil, false_implies, implies_true, and_true]
    exact (reads_field (reads_mapped changed)).of_mem hvalid
      (by simp [Events.GroupEvent.fields, GroupEventBody.fields])
  | groupUpdated group =>
    simp only [GroupEventBody.type, eventFields, List.forall_mem_cons, reads_field_copied,
      true_and, List.not_mem_nil, false_implies, implies_true, and_true]
    exact (reads_group hdate group).of_mem hvalid
      (by simp [Events.GroupEvent.fields, GroupEventBody.fields])
  | groupRelationshipChanged otherGroupId relationship =>
    simp only [GroupEventBody.type, eventFields, List.forall_mem_cons, reads_field_copied,
      true_and, List.not_mem_nil, false_implies, implies_true, and_true]
    cases relationship with
    | none =>
      have hnull : (objectOrNull relationshipFields).Reads dateOf "relationship" (some .null) :=
        ⟨_, rfl⟩
      exact hnull.of_mem hvalid (by simp [Events.GroupEvent.fields, GroupEventBody.fields])
    | some relationship =>
      have hobject : (EventReader.object relationshipFields).Reads dateOf "relationship"
          (some relationship.json) := reads_relationship hdate relationship
      have hsome : (objectOrNull relationshipFields).Reads dateOf "relationship"
          (some relationship.json) := hobject
      exact hsome.of_mem hvalid (by simp [Events.GroupEvent.fields, GroupEventBody.fields])
  | _ =>
    simp only [GroupEventBody.type, eventFields, List.forall_mem_cons, reads_field_copied,
      reads_field_copiedIfSent, List.not_mem_nil, false_implies, implies_true, and_true]

lemma eventType?_name (type : JunjoEventType) :
    eventType? (some (.str (text type.name))) = some type := by
  cases type <;> decide

/-- The text of a group's event is decoded to an event of its type and id. -/
theorem decodeEventData_event (hdate : ReadsDates dateOf) (e : Events.GroupEvent) :
    ∃ event, decodeEventData dateOf (Json.stringify e.json) = .ok (some event) ∧
      event.type = e.body.type ∧ event.id = some (.str (Utf8.utf16 e.id)) := by
  have hprop : ∀ name v, (name, v) ∈ e.fields → prop (some e.json) name = .ok (some v) := by
    intro name v hmem
    rw [Events.GroupEvent.json, Export.object, prop, lookup_fields e.valid_json hmem]
  obtain ⟨l, hl⟩ := readEvent_ok (reads_body hdate e)
  refine ⟨{ id := some (.str (Utf8.utf16 e.id)), gameId := some (.str e.gameId)
            occurredAt := e.occurredAt.val, type := e.body.type, fields := l }, ?_, rfl, rfl⟩
  rw [decodeEventData, Json.parse_stringify e.valid_json]
  dsimp only
  have hevent : deserializeEvent dateOf e.json = .ok
      { id := some (.str (Utf8.utf16 e.id)), gameId := some (.str e.gameId)
        occurredAt := e.occurredAt.val, type := e.body.type, fields := l } := by
    rw [deserializeEvent, hprop "id" (.str (Utf8.utf16 e.id)) (by simp [Events.GroupEvent.fields]),
      hprop "gameId" (.str e.gameId) (by simp [Events.GroupEvent.fields]),
      hprop "occurredAt" (Events.date e.occurredAt) (by simp [Events.GroupEvent.fields]),
      hprop "type" (.str (text e.body.type.name)) (by simp [Events.GroupEvent.fields])]
    simp only [Bind.bind, Except.bind, hdate e.occurredAt, eventType?_name]
    rw [Events.GroupEvent.json, Export.object, hl]
  rw [hevent]

end

end Junjo.Sdk
