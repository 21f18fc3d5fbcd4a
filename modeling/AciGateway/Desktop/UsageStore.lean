import AciGateway.Lib.FinMap
import Mathlib

/-! The usage database of the desktop application: one row per request, merged from the partial
reports about it, and the queries over the rows. -/
namespace AciGateway.Desktop

/-- One request as the window and the database show it. -/
structure RequestActivity (Cost : Type) where
  id : String
  sessionId : String
  method : String
  path : String
  model : Option String
  status : Nat
  streamed : Bool
  receiptId : Option String
  verified : Option Bool
  detail : String
  atTime : Nat
  agent : Option String
  localPolicyApplied : Option Bool
  rewritten : Option Bool
  leftDevice : Bool
  inputTokens : Option Nat
  outputTokens : Option Nat
  cacheReadTokens : Option Nat
  cacheWriteTokens : Option Nat
  costUsd : Option Cost
  deriving DecidableEq

def success (status : Nat) : Bool := 200 ≤ status && status ≤ 299

def failing (status : Nat) : Bool := status != 0 && !success status

variable {Cost : Type} {item row : RequestActivity Cost} {id : String}

namespace RequestActivity

/-- The database's integers are signed, so a larger number cannot be bound to the statement. -/
def storable (item : RequestActivity Cost) : Bool :=
  item.atTime < 2 ^ 63 && [item.inputTokens, item.outputTokens, item.cacheReadTokens,
    item.cacheWriteTokens].all (·.all (· < 2 ^ 63))

/-- The `ON CONFLICT(id) DO UPDATE` clauses: the row that is there, and the excluded one. -/
def onConflict (row excluded : RequestActivity Cost) : RequestActivity Cost :=
  { excluded with
    atTime := min row.atTime excluded.atTime
    agent := excluded.agent.or row.agent
    model := excluded.model.or row.model
    status := if row.status = 0 ∨ success row.status then excluded.status else row.status
    streamed := row.streamed || excluded.streamed
    receiptId := excluded.receiptId.or row.receiptId
    verified := excluded.verified.or row.verified
    detail :=
      if (failing row.status ∧ row.detail ≠ "") ∨ excluded.detail = "" then row.detail
      else excluded.detail
    localPolicyApplied := excluded.localPolicyApplied.or row.localPolicyApplied
    rewritten := excluded.rewritten.or row.rewritten
    leftDevice := row.leftDevice || excluded.leftDevice
    inputTokens := excluded.inputTokens.or row.inputTokens
    outputTokens := excluded.outputTokens.or row.outputTokens
    cacheReadTokens := excluded.cacheReadTokens.or row.cacheReadTokens
    cacheWriteTokens := excluded.cacheWriteTokens.or row.cacheWriteTokens
    costUsd := excluded.costUsd.or row.costUsd }

/-- Reports the store keeps. -/
def taken (item : RequestActivity Cost) : Bool := item.path != "/v1/models" && item.storable

end RequestActivity

/-- The rows under their primary key. -/
structure UsageStore (Cost : Type) where
  rows : FinMap String (RequestActivity Cost)
  keyed : ∀ {id row}, rows.lookup id = some row → row.id = id ∧ row.atTime < 2 ^ 63

namespace UsageStore

open RequestActivity

variable {store : UsageStore Cost}

def empty : UsageStore Cost := ⟨∅, by simp⟩

def list (store : UsageStore Cost) : List (RequestActivity Cost) :=
  store.rows.entries.map (·.2)

/-- What an upsert of `item` leaves under its id. -/
def merged (store : UsageStore Cost) (item : RequestActivity Cost) : RequestActivity Cost :=
  (store.rows.lookup item.id).elim item (onConflict · item)

theorem keyed_merged (h : item.storable) :
    (store.merged item).id = item.id ∧ (store.merged item).atTime < 2 ^ 63 := by
  simp only [storable, Bool.and_eq_true, decide_eq_true_eq] at h
  unfold merged
  cases store.rows.lookup item.id with
  | none => exact ⟨rfl, h.1⟩
  | some row => exact ⟨rfl, Nat.lt_of_le_of_lt (Nat.min_le_right _ _) h.1⟩

def upsert (store : UsageStore Cost) (item : RequestActivity Cost) : Option (UsageStore Cost) :=
  if item.path = "/v1/models" then some store
  else if h : item.storable then
    some
      { rows := store.rows.insert item.id (store.merged item)
        keyed := by
          intro id row hrow
          rw [FinMap.lookup_insert_eq] at hrow
          split at hrow
          · next hid =>
            obtain rfl := Option.some.inj hrow
            rw [hid]
            exact keyed_merged h
          · exact store.keyed hrow }
  else none

/-- The store after a report, which a failed statement leaves as it was. -/
def save (store : UsageStore Cost) (item : RequestActivity Cost) : UsageStore Cost :=
  (store.upsert item).getD store

theorem lookup_save (store : UsageStore Cost) (item : RequestActivity Cost) (id : String) :
    (store.save item).rows.lookup id =
      if item.taken ∧ id = item.id then some (store.merged item) else store.rows.lookup id := by
  unfold save upsert taken
  by_cases hpath : item.path = "/v1/models"
  · simp [hpath]
  · by_cases h : item.storable
    · simp [hpath, h, FinMap.lookup_insert_eq]
    · simp [hpath, h]

def upserts (items : List (RequestActivity Cost)) : UsageStore Cost := items.foldl save empty

end UsageStore

structure UsageSummary (Cost : Type) where
  requests : Nat
  inputTokens : Nat
  outputTokens : Nat
  cacheReadTokens : Nat
  cacheWriteTokens : Nat
  costUsd : Cost
  protectedTotal : Nat
  blockedLocally : Nat
  failedProof : Nat

/-- Whether the summary counts a row as protected. -/
def RequestActivity.isProtected (row : RequestActivity Cost) : Bool :=
  row.verified = some true && success row.status

def summary [Zero Cost] [Add Cost] (rows : List (RequestActivity Cost)) : UsageSummary Cost where
  requests := rows.length
  inputTokens := (rows.filterMap (·.inputTokens)).sum
  outputTokens := (rows.filterMap (·.outputTokens)).sum
  cacheReadTokens := (rows.filterMap (·.cacheReadTokens)).sum
  cacheWriteTokens := (rows.filterMap (·.cacheWriteTokens)).sum
  costUsd := (rows.filterMap (·.costUsd)).sum
  protectedTotal := rows.countP (·.isProtected)
  blockedLocally := rows.countP (!·.leftDevice)
  failedProof := rows.countP (·.verified = some false)

namespace UsageStore

open RequestActivity

variable {store : UsageStore Cost}

/-- The statuses reported for one request, in their order. -/
def reported (items : List (RequestActivity Cost)) (id : String) : List Nat :=
  (items.filter fun item => item.taken ∧ id = item.id).map (·.status)

/-- A failing status stays, any other gives way to the next one. -/
theorem filter_status_save (store : UsageStore Cost) (item : RequestActivity Cost) (id : String) :
    (((store.save item).rows.lookup id).map (·.status)).filter failing =
      (((store.rows.lookup id).map (·.status)).filter failing).or
        ((reported [item] id).find? failing) := by
  rw [lookup_save]
  by_cases h : item.taken ∧ id = item.id
  · obtain ⟨htaken, rfl⟩ := h
    have hreported : reported [item] item.id = [item.status] := by simp [reported, htaken]
    rw [if_pos ⟨htaken, rfl⟩, hreported]
    unfold merged
    cases store.rows.lookup item.id with
    | none => by_cases hf : failing item.status <;> simp [hf]
    | some row =>
      by_cases hrow : failing row.status
      · have hkept : ¬ (row.status = 0 ∨ success row.status) := by
          simpa [failing] using hrow
        simp [onConflict, Option.filter, hkept, hrow]
      · have hgone : row.status = 0 ∨ success row.status := by
          simp only [failing, bne_iff_ne, Bool.and_eq_true, Bool.not_eq_true',
            not_and_or, not_not, Bool.not_eq_false] at hrow
          exact hrow
        by_cases hf : failing item.status <;> simp [onConflict, Option.filter, hgone, hrow, hf]
  · have hreported : reported [item] id = [] := by simpa [reported] using h
    rw [if_neg h, hreported]
    simp

theorem filter_status_upserts (items : List (RequestActivity Cost)) (id : String) :
    (((upserts items).rows.lookup id).map (·.status)).filter failing =
      (reported items id).find? failing := by
  induction items using List.reverseRecOn with
  | nil => simp [upserts, empty, reported]
  | append_singleton items item ih =>
    have hsplit : reported (items ++ [item]) id = reported items id ++ reported [item] id := by
      simp [reported]
    rw [hsplit, List.find?_append, ← ih, ← filter_status_save]
    simp [upserts]

theorem mem_list : row ∈ store.list ↔ store.rows.lookup row.id = some row := by
  simp only [list, List.mem_map]
  constructor
  · rintro ⟨⟨id, row⟩, hmem, rfl⟩
    have hrow := FinMap.mem_entries.mp hmem
    rwa [(store.keyed hrow).1]
  · intro h
    exact ⟨⟨row.id, row⟩, FinMap.mem_entries.mpr h, rfl⟩

/-- Over any run of reports, the stored status of a request is failing exactly when a report the
store took carried a failing one, and it is the first of them. No summary counts the request as
protected then: its total is the one of the other rows. -/
theorem failed_never_protected [Zero Cost] [Add Cost] (items : List (RequestActivity Cost))
    (id : String) (keep : RequestActivity Cost → Bool) :
    (((upserts items).rows.lookup id).map (·.status)).filter failing =
      (reported items id).find? failing ∧
    ((reported items id).any failing →
      (summary ((upserts items).list.filter keep)).protectedTotal =
        (summary (((upserts items).list.filter (·.id ≠ id)).filter keep)).protectedTotal) := by
  refine ⟨filter_status_upserts items id, ?_⟩
  intro hany
  obtain ⟨status, hfirst⟩ : ∃ status, (reported items id).find? failing = some status := by
    simpa [← Option.isSome_iff_exists] using hany
  have hstored := (filter_status_upserts items id).trans hfirst
  simp only [summary, List.countP_filter]
  apply List.countP_congr
  intro row hmem
  by_cases hid : row.id = id
  · -- The row of the request itself has a failing status.
    have hrow := mem_list.mp hmem
    rw [hid] at hrow
    simp only [hrow, Option.map_some, Option.filter_eq_some_iff, Option.some.injEq] at hstored
    obtain ⟨rfl, hfails⟩ := hstored
    have hsuccess : success row.status = false := by
      simp only [failing, Bool.and_eq_true, Bool.not_eq_true'] at hfails
      exact hfails.2
    simp [isProtected, hsuccess, hid]
  · simp [hid]

/-- The row of a request is merged from the reports taken about it, in their order and whatever
came between them. It has left the device if one of them told so. -/
theorem row_of_reports (items : List (RequestActivity Cost)) (id : String) :
    let reports := items.filter fun item => item.taken ∧ id = item.id
    (upserts items).rows.lookup id =
      reports.foldl (fun row item => some (row.elim item (onConflict · item))) none ∧
    ((upserts items).rows.lookup id).any (·.leftDevice) = reports.any (·.leftDevice) := by
  induction items using List.reverseRecOn with
  | nil => simp [upserts, empty]
  | append_singleton items item ih =>
    obtain ⟨hrow, hleft⟩ := ih
    have hsave : upserts (items ++ [item]) = (upserts items).save item := by simp [upserts]
    rw [hsave, lookup_save]
    by_cases h : item.taken ∧ id = item.id
    · obtain ⟨htaken, rfl⟩ := h
      simp only [htaken, and_self, if_true, List.filter_append, List.foldl_append, ← hrow,
        List.any_append, ← hleft, merged]
      cases (upserts items).rows.lookup item.id <;> simp [onConflict, htaken]
    · simpa [h] using And.intro hrow hleft

end UsageStore

/-- A streamed chat request that is still without an answer. -/
def openRequest : RequestActivity Nat where
  id := "r"
  sessionId := "s"
  method := "POST"
  path := "/v1/chat/completions"
  model := none
  status := 0
  streamed := true
  receiptId := none
  verified := none
  detail := ""
  atTime := 1
  agent := none
  localPolicyApplied := none
  rewritten := none
  leftDevice := true
  inputTokens := none
  outputTokens := none
  cacheReadTokens := none
  cacheWriteTokens := none
  costUsd := none

namespace UsageStore

open RequestActivity

/-- A failure, then a verified receipt: the request keeps its 502. -/
theorem failed_never_protected_receipt :
    let items : List (RequestActivity Nat) :=
      [{ openRequest with status := 502 }, { openRequest with status := 200, verified := true }]
    ((upserts items).rows.lookup "r").map (·.status) = some 502 ∧
      (summary ((upserts items).list.filter fun _ => true)).protectedTotal =
        (summary (((upserts items).list.filter (·.id ≠ "r")).filter
          fun _ => true)).protectedTotal :=
  ⟨by decide, (failed_never_protected _ "r" fun _ => true).2 (by decide)⟩

/-- A failed listing of the models leaves no row. -/
theorem failed_listing_unstored :
    let item : RequestActivity Nat := { openRequest with path := "/v1/models", status := 502 }
    failing item.status ∧ (upserts [item]).rows.lookup item.id = none := by decide

end UsageStore

end AciGateway.Desktop
