import CmeBackend.Production.Entities

/-!
# Exchanges of base resources

`exchangeResourcesBetweenSameUserVillages` and `exchangeResourcesBetweenVillages`
(`resources-ms-exchanges.service.ts`): the checks on the two villages that the service has loaded
(`checkExchange`), and the counts that it then saves, first those of the sender, then those of the
receiver.

* `formatSent`: the request as an object by the names of the types. A type that is sent twice has
  the count of its last entry.
* `ExchangeEnd`: how a request ends that moves nothing. It may end with no result at all.
-/

namespace Cme.Exchanges

open GameRules

variable {C : Catalog}

/-- An entry of the list of a request. -/
structure Sent where
  type : String
  count : ℤ

/-- `ExchangeResBetweenOwnVillageMsReq`, `ExchangeMilitaryResBetweenOwnVillageMsReq` -/
structure Request where
  senderVillageId : ℕ
  receiverVillageId : ℕ
  sentResources : List Sent
  userId : ℕ

inductive ExchangeEnd where
  | exception (e : HttpException)
  /-- `return;` -/
  | undefined
  | typeError
  deriving DecidableEq

/-- `BASE_RESOURCES` -/
def exchangeableResources : List String := ["food", "wood", "iron"]

/-- `sentResourcesFormatted[type] = sent` -/
def setSent (type : String) (sent : SentResource) : SentResources → SentResources
  | [] => [(type, sent)]
  | (key, old) :: rest =>
    if key = type then (key, sent) :: rest else (key, old) :: setSent type sent rest

/-- The loop over the entries: the object so far, and whether an entry is forbidden. -/
def formatSent (C : Catalog) (formatted : SentResources) (forbidden : Bool) :
    List Sent → Except ExchangeEnd (SentResources × Bool)
  | [] => .ok (formatted, forbidden)
  | res :: rest =>
    if res.type = "" then .error .undefined else
      match C.find? res.type with
      | none => .error .undefined
      | some resType =>
        formatSent C (setSent res.type ⟨resType.id, res.count⟩ formatted)
          (forbidden || res.type ∉ exchangeableResources) rest

/-- `villageHasEnoughResources`, in an exchange. -/
def enoughToExchange (rows : List (VillageResourceType C)) (formatted : SentResources) :
    Except ExchangeEnd Bool :=
  match villageHasEnoughResources rows formatted with
  | .ok enough => .ok enough
  | .error _ => .error .typeError

/-- The part of `exchangeResourcesBetweenVillages` before the counts change. -/
def formatExchange (senderVillage : LoadedVillage C) (sentResources : List Sent) :
    Except ExchangeEnd SentResources := do
  let (formatted, forbidden) ← formatSent C [] false sentResources
  if forbidden then
    .error (.exception ⟨"Can only exchange base resources: food,wood,iron", .badRequest⟩)
  else if formatted.isEmpty then
    .error (.exception ⟨"No resources to send", .badRequest⟩)
  else
    let enough ← enoughToExchange senderVillage.villagesResourceTypes formatted
    if enough then .ok formatted
    else .error (.exception
      ⟨"Sender village has less resources than requested.", .badRequest⟩)

/-- `senderVillage?.user?.id !== userId || receiverVillage?.user?.id !== userId` -/
def checkOwners (userId : ℕ) (senderVillage receiverVillage : Option (LoadedVillage C)) :
    Except ExchangeEnd (LoadedVillage C × LoadedVillage C) :=
  match senderVillage, receiverVillage with
  | some sender, some receiver =>
    if sender.village.userId = some userId ∧ receiver.village.userId = some userId then
      .ok (sender, receiver)
    else .error (.exception
      ⟨"Both sender and receiver villages must be owned by you", .badRequest⟩)
  | _, _ => .error (.exception
      ⟨"Both sender and receiver villages must be owned by you", .badRequest⟩)

/-- Both villages are loaded, and both are of the user. -/
theorem checkOwners_eq_ok {userId : ℕ} {senderVillage receiverVillage : Option (LoadedVillage C)}
    {p : LoadedVillage C × LoadedVillage C} :
    checkOwners userId senderVillage receiverVillage = .ok p ↔
      senderVillage = some p.1 ∧ receiverVillage = some p.2 ∧
        p.1.village.userId = some userId ∧ p.2.village.userId = some userId := by
  unfold checkOwners
  match senderVillage, receiverVillage with
  | some s, some r =>
    dsimp only
    by_cases h : s.village.userId = some userId ∧ r.village.userId = some userId
    · rw [if_pos h, Except.ok.injEq]
      constructor
      · rintro rfl
        exact ⟨rfl, rfl, h⟩
      · rintro ⟨hs, hr, -⟩
        exact Prod.ext (Option.some.inj hs) (Option.some.inj hr)
    · rw [if_neg h]
      constructor
      · intro he
        cases he
      · rintro ⟨hs, hr, hown⟩
        obtain rfl := Option.some.inj hs
        obtain rfl := Option.some.inj hr
        exact absurd hown h
  | none, _ => simp
  | some s, none => simp

/-- `senderVillageId === receiverVillageId` -/
def checkDifferent (req : Request) : Except ExchangeEnd Unit :=
  if req.senderVillageId = req.receiverVillageId then
    .error (.exception
      ⟨"Sender and receiver villages cannot be the same village", .badRequest⟩)
  else .ok ()

/-- An exchange that has passed its checks. -/
structure CheckedExchange (C : Catalog) where
  sender : LoadedVillage C
  receiver : LoadedVillage C
  formatted : SentResources

/-- The checks of an exchange whose villages are loaded. -/
def checkExchange (req : Request) (senderVillage receiverVillage : Option (LoadedVillage C)) :
    Except ExchangeEnd (CheckedExchange C) := do
  let (sender, receiver) ← checkOwners req.userId senderVillage receiverVillage
  let formatted ← formatExchange sender req.sentResources
  return { sender, receiver, formatted }

/-- `senderVillageResourcesLeftAfterExchange` -/
def CheckedExchange.senderLeft (c : CheckedExchange C) : List (Entity C) :=
  c.sender.villagesResourceTypes.map fun r =>
    ⟨r, addOrRemoveResourcesToVillage c.formatted true r⟩

/-- `receiverVillageResourcesTotalAfterExchange` -/
def CheckedExchange.receiverTotal (c : CheckedExchange C) : List (Entity C) :=
  c.receiver.villagesResourceTypes.map fun r =>
    ⟨r, addOrRemoveResourcesToVillage c.formatted false r⟩

end Cme.Exchanges
