import Promfetcher.Foundation.JsonGrammar
import Promfetcher.Mbus.Message

/-!
# The texts of a message

`encoding/json` decodes every string to valid UTF-8. What is stored in the
fields of a message is therefore valid, whatever bytes the payload has.
-/

namespace Promfetcher

open Foundation

/-- All texts of the list are valid UTF-8. -/
def ValidTexts (texts : List GoString) : Prop :=
  ∀ text ∈ texts, validString text = true

theorem storeString_valid {old new : GoString} {value : Json} (valid : value.AllValid)
    (oldValid : validString old = true) (stored : value.storeString old = some new) :
    validString new = true := by
  cases valid with
  | null =>
      cases stored
      exact oldValid
  | string valid =>
      cases stored
      exact valid
  | _ => cases stored

theorem storeElements_valid {cells strings left : List GoString} {elements : List Json}
    (all : ∀ element ∈ elements, element.AllValid) (cellsValid : ValidTexts cells)
    (stored : Json.storeElements cells elements = some (strings, left)) :
    ValidTexts strings ∧ ValidTexts left := by
  induction elements generalizing cells strings with
  | nil =>
      cases stored
      exact ⟨List.forall_mem_nil _, cellsValid⟩
  | cons element elements inductionHypothesis =>
      rw [List.forall_mem_cons] at all
      simp only [Json.storeElements, Option.bind_eq_bind, Option.bind_eq_some_iff, Option.pure_def,
        Option.some.injEq, Prod.mk.injEq] at stored
      rcases stored with ⟨string, isString, ⟨others, _⟩, othersStored, rfl, rfl⟩
      have headValid : validString (cells.headD []) = true := by
        cases cells with
        | nil => rfl
        | cons cell cells => exact cellsValid cell List.mem_cons_self
      have tailValid : ValidTexts cells.tail :=
        fun text textMem => cellsValid text (List.mem_of_mem_tail textMem)
      rcases inductionHypothesis all.2 tailValid othersStored with ⟨othersValid, leftValid⟩
      exact ⟨List.forall_mem_cons.mpr ⟨storeString_valid all.1 headValid isString, othersValid⟩,
        leftValid⟩

theorem storeStrings_valid {cells strings behind : List GoString} {value : Json}
    (valid : value.AllValid) (cellsValid : ValidTexts cells)
    (stored : value.storeStrings cells = some (strings, behind)) :
    ValidTexts strings ∧ ValidTexts behind := by
  cases valid with
  | null =>
      cases stored
      exact ⟨List.forall_mem_nil _, List.forall_mem_nil _⟩
  | @array elements all =>
      cases elements with
      | nil =>
          cases stored
          exact ⟨List.forall_mem_nil _, List.forall_mem_nil _⟩
      | cons element elements => exact storeElements_valid all cellsValid stored
  | _ => cases stored

/-- What each member preserves holds after all of them. -/
theorem storeStruct_preserves {Struct : Type} {store : Struct → GoString → Json → Option Struct}
    (holds : Struct → Prop) {old new : Struct} {value : Json} (valid : value.AllValid)
    (preserves : ∀ {struct name member stored}, holds struct → member.AllValid →
      store struct name member = some stored → holds stored)
    (oldHolds : holds old) (stored : value.storeStruct store old = some new) : holds new := by
  cases valid with
  | null =>
      cases stored
      exact oldHolds
  | @object members names all =>
      unfold Json.storeStruct at stored
      induction members generalizing old with
      | nil =>
          cases stored
          exact oldHolds
      | cons member members inductionHypothesis =>
          rw [List.forall_mem_cons] at names all
          simp only [List.foldlM_cons, Option.bind_eq_bind, Option.bind_eq_some_iff] at stored
          rcases stored with ⟨next, first, others⟩
          exact inductionHypothesis (preserves oldHolds all.1 first) names.2 all.2 others
  | _ => cases stored

/-- A string field gets a valid text. -/
theorem field_stored {Struct : Type} {put : GoString → Struct} {old : GoString} {new : Struct}
    {value : Json} (valid : value.AllValid)
    (stored : (value.storeString old >>= fun text => pure (put text)) = some new)
    (oldValid : validString old = true) : ∃ text, validString text = true ∧ new = put text := by
  rcases Option.bind_eq_some_iff.mp stored with ⟨text, isText, same⟩
  exact ⟨text, storeString_valid valid oldValid isText, (Option.some.inj same).symm⟩

/-- The texts of tags. -/
def Tags.texts (tags : Tags) : List GoString :=
  [tags.processType, tags.processInstanceID, tags.component, tags.instanceID, tags.spaceName,
    tags.organizationID, tags.processID, tags.organizationName, tags.sourceID, tags.appID,
    tags.appName, tags.spaceID]

theorem some_of_ite {α : Type} {condition : Prop} [Decidable condition] {chosen other : Option α}
    {result : α} (isSome : (if condition then chosen else other) = some result) :
    chosen = some result ∨ other = some result := by
  split at isSome
  · exact .inl isSome
  · exact .inr isSome

theorem Tags.store_valid {tags stored : Tags} {name : GoString} {value : Json}
    (tagsValid : ValidTexts tags.texts) (valid : value.AllValid)
    (isStored : tags.store name value = some stored) : ValidTexts stored.texts := by
  simp only [ValidTexts, Tags.texts, List.forall_mem_cons, List.not_mem_nil,
    false_imp_iff, implies_true, and_true] at tagsValid ⊢
  unfold Tags.store at isStored
  -- The twelve fields are all stored alike.
  iterate 12
    rcases some_of_ite isStored with textStored | isStored
    · rcases field_stored valid textStored (by simp only [tagsValid]) with ⟨_, textValid, rfl⟩
      simp only [tagsValid, textValid, true_and]
  cases isStored
  exact tagsValid

/-- The texts of a message, with those behind the length of its URIs. -/
def Message.texts (msg : Message) : List GoString :=
  [msg.app, msg.availabilityZone, msg.host, msg.isolationSegment, msg.privateInstanceID,
    msg.privateInstanceIndex, msg.protocol, msg.routeServiceURL, msg.serverCertDomainSAN] ++
    msg.tags.texts ++ (msg.uris.map Uri.value ++ msg.urisBehind)

theorem Message.store_valid {msg stored : Message} {name : GoString} {value : Json}
    (msgValid : ValidTexts msg.texts) (valid : value.AllValid)
    (isStored : msg.store name value = some stored) : ValidTexts stored.texts := by
  simp only [ValidTexts, Message.texts, List.forall_mem_append, List.forall_mem_cons,
    List.not_mem_nil, false_imp_iff, implies_true, and_true] at msgValid ⊢
  rcases msgValid with ⟨⟨own, tagsValid⟩, urisValid⟩
  unfold Message.store at isStored
  -- The fields in the order of `store`: those with a text, and between them those with a number.
  iterate 2
    rcases some_of_ite isStored with textStored | isStored
    · rcases field_stored valid textStored (by simp only [own]) with ⟨_, textValid, rfl⟩
      exact ⟨⟨by simp only [own, textValid, and_self], tagsValid⟩, urisValid⟩
  rcases some_of_ite isStored with numberStored | isStored
  · rcases Option.bind_eq_some_iff.mp numberStored with ⟨_, _, same⟩
    cases same
    exact ⟨⟨own, tagsValid⟩, urisValid⟩
  iterate 2
    rcases some_of_ite isStored with textStored | isStored
    · rcases field_stored valid textStored (by simp only [own]) with ⟨_, textValid, rfl⟩
      exact ⟨⟨by simp only [own, textValid, and_self], tagsValid⟩, urisValid⟩
  rcases some_of_ite isStored with numberStored | isStored
  · rcases Option.bind_eq_some_iff.mp numberStored with ⟨_, _, same⟩
    cases same
    exact ⟨⟨own, tagsValid⟩, urisValid⟩
  iterate 5
    rcases some_of_ite isStored with textStored | isStored
    · rcases field_stored valid textStored (by simp only [own]) with ⟨_, textValid, rfl⟩
      exact ⟨⟨by simp only [own, textValid, and_self], tagsValid⟩, urisValid⟩
  iterate 2
    rcases some_of_ite isStored with numberStored | isStored
    · rcases Option.bind_eq_some_iff.mp numberStored with ⟨_, _, same⟩
      cases same
      exact ⟨⟨own, tagsValid⟩, urisValid⟩
  rcases some_of_ite isStored with tagsStored | isStored
  · rcases Option.bind_eq_some_iff.mp tagsStored with ⟨tags, isTags, same⟩
    cases same
    exact ⟨⟨own, storeStruct_preserves (fun tags : Tags => ValidTexts tags.texts) valid
      Tags.store_valid tagsValid isTags⟩, urisValid⟩
  rcases some_of_ite isStored with urisStored | isStored
  · rcases Option.bind_eq_some_iff.mp urisStored with ⟨⟨uris, behind⟩, isUris, same⟩
    cases same
    have cellsValid : ValidTexts (msg.uris.map Uri.value ++ msg.urisBehind) :=
      List.forall_mem_append.mpr urisValid
    rcases storeStrings_valid valid cellsValid isUris with ⟨shownValid, behindValid⟩
    refine ⟨⟨own, tagsValid⟩, ?_, behindValid⟩
    simpa [Function.comp_def, ValidTexts] using shownValid
  cases isStored
  exact ⟨⟨own, tagsValid⟩, urisValid⟩

/-- A message holds valid texts only. -/
theorem createMessage_valid {data : GoString} {msg : Message}
    (created : createMessage data = .ok msg) : ValidTexts msg.texts := by
  unfold createMessage at created
  split at created
  · cases created
  · rename_i decoded
    split at created
    · cases created
      rcases Option.bind_eq_some_iff.mp decoded with ⟨document, parsed, stored⟩
      have noTexts : ValidTexts (Message.texts {}) := by
        simp [ValidTexts, Message.texts, Tags.texts]
        rfl
      exact storeStruct_preserves (fun msg : Message => ValidTexts msg.texts)
        (Json.allValid_of_parse parsed) Message.store_valid noTexts stored
    · cases created

end Promfetcher
