import AciGateway.Lib.FinMap
import AciGateway.Lib.SortedMap
import AciGateway.Lib.Text
import AciGateway.Lib.U64

/-! Tool calls assembled from the deltas of a chat stream. -/
namespace AciGateway.Transform

open SortedMap
open Option (some map_some getD_some)

structure ToolCallDelta where
  index : Option U64
  id : String
  name : String
  arguments : String
  deriving DecidableEq

structure ToolCall where
  id : String := ""
  name : String := ""
  arguments : String := ""
  deriving DecidableEq

/-- The upstream's index, then the order of the calls sent under it. -/
abbrev Slot := U64 ×ₗ Nat

def Slot.index (slot : Slot) : U64 := (ofLex slot).1

def Slot.order (slot : Slot) : Nat := (ofLex slot).2

def usizeMax : U64 := ⟨U64.maxValue, Nat.sub_lt (Nat.two_pow_pos 64) Nat.one_pos⟩

/-- An upstream may send any index, and the increment of the largest wraps. -/
def nextIndex (index : U64) : U64 := Fin.ofNat (2 ^ 64) (index.val + 1)

/-- The part of a chat stream's state that tool calls are assembled in. -/
structure ToolCalls where
  calls : SortedMap Slot ToolCall := .empty
  /-- The call each upstream index currently continues. -/
  bound : FinMap U64 Slot := ∅
  /-- The call a delta without an index and an id continues. -/
  lastCall : Option Slot := none

/-- The first non-empty identity stands; arguments are fragments. -/
def ToolCall.extend (call : ToolCall) (delta : ToolCallDelta) : ToolCall where
  id := if call.id = "" then delta.id else call.id
  name := if call.name = "" then delta.name else call.name
  arguments := call.arguments ++ delta.arguments

namespace ToolCalls

/-- The call that a delta's id names. -/
def known (s : ToolCalls) (delta : ToolCallDelta) : Option Slot :=
  (s.calls.entries.find? fun e => delta.id ≠ "" ∧ e.2.id = delta.id).map Prod.fst

/-- The slot after the calls sent under an index. -/
def afterIndex (s : ToolCalls) (index : U64) : Slot :=
  toLex (index, ((s.calls.entries.filter fun e => e.1.index = index).getLast?).elim 0
    fun e => e.1.order + 1)

/-- The slot of a call without an index, after all the others. -/
def afterAll (s : ToolCalls) : Slot := toLex (s.calls.last?.elim 0 fun e => nextIndex e.1.index, 0)

/-- The call a delta belongs to. -/
def choose (s : ToolCalls) (delta : ToolCallDelta) : Option Slot :=
  match s.known delta, delta.index with
  | some slot, _ => some slot
  | none, some index =>
    let current := (s.bound.lookup index).getD (toLex (index, 0))
    match s.calls.get? current with
    | some call => some (if delta.id ≠ "" ∧ call.id ≠ "" then s.afterIndex index else current)
    | none => some current
  | none, none => if delta.id = "" then s.lastCall else some s.afterAll

def extendAt (s : ToolCalls) (delta : ToolCallDelta) (slot : Slot) : ToolCalls where
  calls := s.calls.upsert slot fun call => (call.getD {}).extend delta
  bound := match delta.index with
    | some index => s.bound.insert index slot
    | none => s.bound
  lastCall := some slot

/-- A continuation with no call to continue has nowhere to go. -/
def toolDelta (s : ToolCalls) (delta : ToolCallDelta) : ToolCalls :=
  ((s.choose delta).map (s.extendAt delta)).getD s

def assemble (deltas : List ToolCallDelta) : ToolCalls := deltas.foldl toolDelta {}

end ToolCalls

/-! Written calls. -/

/-- A tool call a client can run. -/
structure ChatToolCall where
  id : String
  name : String
  arguments : String
  deriving DecidableEq

def synthesizedCallId (responseId : String) (index : Nat) : String :=
  "call_" ++ responseId ++ "_" ++ toString index

/-- The id a call is written with. -/
def writtenId (responseId : String) (position : Nat) (call : ToolCall) : String :=
  if Text.trim call.id = "" then synthesizedCallId responseId position else Text.trim call.id

/-- A call without a name is left out. -/
def writtenCall (responseId : String) (position : Nat) (call : ToolCall) : Option ChatToolCall :=
  if Text.trim call.name = "" then none
  else some ⟨writtenId responseId position call, Text.trim call.name, call.arguments⟩

def writtenCalls (responseId : String) (calls : List ToolCall) : List ChatToolCall :=
  calls.zipIdx.filterMap fun call => writtenCall responseId call.2 call.1

namespace ToolCalls

variable {s : ToolCalls} {delta : ToolCallDelta} {slot : Slot} {call : ToolCall} {index : U64}
  {n : Nat}

/-! One delta. -/

open List

theorem known_eq_some (h : s.known delta = some slot) :
    delta.id ≠ "" ∧ ∃ call, s.calls.get? slot = some call ∧ call.id = delta.id := by
  obtain ⟨e, he, rfl⟩ := Option.map_eq_some_iff.mp h
  have hid := find?_some he
  simp only [ne_eq, decide_eq_true_eq] at hid
  exact ⟨hid.1, e.2, get?_eq_some_iff.mpr (mem_of_find?_eq_some he), hid.2⟩

theorem known_eq_none (h : s.known delta = none) (hid : delta.id ≠ "")
    (hcall : s.calls.get? slot = some call) : call.id ≠ delta.id := by
  have hfind := Option.map_eq_none_iff.mp h
  rw [find?_eq_none] at hfind
  have hne := hfind _ (get?_eq_some_iff.mp hcall)
  simpa [hid] using hne

theorem get?_afterIndex (s : ToolCalls) (index : U64) :
    s.calls.get? (s.afterIndex index) = none := by
  rw [Option.eq_none_iff_forall_not_mem]
  intro call hcall
  have hmem := get?_eq_some_iff.mp hcall
  have hin : (s.afterIndex index, call) ∈ s.calls.entries.filter fun e => e.1.index = index :=
    mem_filter.mpr ⟨hmem, by simp [afterIndex, Slot.index]⟩
  have hsorted := s.calls.sorted.filter fun e => decide (e.1.index = index)
  cases hlast : (s.calls.entries.filter fun e => e.1.index = index).getLast? with
  | none => rw [getLast?_eq_none_iff.mp hlast] at hin; cases hin
  | some e =>
    have hafter : s.afterIndex index = toLex (index, e.1.order + 1) := by simp [afterIndex, hlast]
    have hindex : e.1.index = index := by
      simpa using (mem_filter.mp (mem_of_getLast? hlast)).2
    have hlt : e.1 < s.afterIndex index := by
      rw [hafter, Prod.Lex.lt_iff]
      exact .inr ⟨hindex, Nat.lt_succ_self _⟩
    obtain ⟨init, heq⟩ := getLast?_eq_some_iff.mp hlast
    rw [heq] at hin hsorted
    rcases mem_append.mp hin with hinit | hend
    · have hlt' := (pairwise_append.mp hsorted).2.2 _ hinit e mem_cons_self
      exact absurd (hlt.trans hlt') (lt_irrefl _)
    · rw [← mem_singleton.mp hend] at hlt
      exact absurd hlt (lt_irrefl _)

theorem lt_nextIndex {index : U64} (h : index ≠ usizeMax) : index < nextIndex index := by
  have hval : index.val ≠ U64.maxValue := fun he => h (Fin.ext he)
  unfold U64.maxValue at hval
  rw [Fin.lt_def, nextIndex, Fin.val_ofNat, Nat.mod_eq_of_lt (by omega)]
  exact Nat.lt_succ_self _

/-- A delta without an index opens a call after one that has the largest index. -/
def Overflows (s : ToolCalls) (delta : ToolCallDelta) : Prop :=
  s.known delta = none ∧ delta.index = none ∧ delta.id ≠ "" ∧
    ∃ e, s.calls.last? = some e ∧ e.1.index = usizeMax

theorem get?_afterAll (h : ∀ e, s.calls.last? = some e → e.1.index ≠ usizeMax) :
    s.calls.get? s.afterAll = none := by
  cases hlast : s.calls.last? with
  | none =>
    rw [get?, getLast?_eq_none_iff.mp hlast]
    rfl
  | some e =>
    refine get?_eq_none_of_last? hlast ?_
    rw [afterAll, hlast, Prod.Lex.lt_iff]
    exact .inl (lt_nextIndex (h e hlast))

/-- A delta with an id goes to a call without one, or to the call that has it. -/
theorem id_of_choose (h : s.choose delta = some slot) (hid : delta.id ≠ "")
    (hflow : ¬ s.Overflows delta) (hcall : s.calls.get? slot = some call) :
    call.id = "" ∨ call.id = delta.id := by
  unfold choose at h
  cases hknown : s.known delta with
  | some slot' =>
    rw [hknown] at h
    obtain rfl := some.inj h
    obtain ⟨call', hcall', hid'⟩ := (known_eq_some hknown).2
    rw [hcall, some.injEq] at hcall'
    exact .inr (hcall' ▸ hid')
  | none =>
    rw [hknown] at h
    cases hindex : delta.index with
    | some index =>
      simp only [hindex] at h
      split at h
      · next current hcurrent =>
        split at h
        · obtain rfl := some.inj h
          rw [get?_afterIndex] at hcall
          cases hcall
        · next hsame =>
          obtain rfl := some.inj h
          rw [hcall, some.injEq] at hcurrent
          exact .inl (by_contra fun hne => hsame ⟨hid, hcurrent ▸ hne⟩)
      · next hcurrent =>
        obtain rfl := some.inj h
        rw [hcall] at hcurrent
        cases hcurrent
    | none =>
      simp only [hindex, hid, if_false] at h
      obtain rfl := some.inj h
      rw [get?_afterAll fun e he hmax => hflow ⟨hknown, hindex, hid, e, he, hmax⟩] at hcall
      cases hcall

/-! Every sequence of deltas. -/

/-- The call that each delta went to. -/
def assignments : ToolCalls → List ToolCallDelta → List (ToolCallDelta × Slot)
  | _, [] => []
  | s, delta :: deltas =>
    (s.choose delta).toList.map (delta, ·) ++ assignments (s.toolDelta delta) deltas

/-- No delta makes an index overflow. -/
def Fits : ToolCalls → List ToolCallDelta → Prop
  | _, [] => True
  | s, delta :: deltas => ¬ s.Overflows delta ∧ Fits (s.toolDelta delta) deltas

/-- The call in a slot has an id, and keeps it. -/
def HasId (s : ToolCalls) (slot : Slot) (id : String) : Prop :=
  ∃ call, s.calls.get? slot = some call ∧ call.id = id

theorem hasId_toolDelta {id : String} (h : s.HasId slot id) (hid : id ≠ "") :
    (s.toolDelta delta).HasId slot id := by
  obtain ⟨call, hcall, rfl⟩ := h
  unfold toolDelta
  cases hchoose : s.choose delta with
  | none => exact ⟨call, hcall, rfl⟩
  | some slot' =>
    by_cases hslot : slot = slot'
    · subst hslot
      refine ⟨call.extend delta, ?_, if_neg hid⟩
      simp [extendAt, hcall]
    · exact ⟨call, by simp [extendAt, hslot, hcall], rfl⟩

theorem hasId_of_choose (h : s.choose delta = some slot) (hid : delta.id ≠ "")
    (hflow : ¬ s.Overflows delta) : (s.toolDelta delta).HasId slot delta.id := by
  refine ⟨((s.calls.get? slot).getD {}).extend delta, by simp [toolDelta, h, extendAt], ?_⟩
  cases hcall : s.calls.get? slot with
  | none => rfl
  | some call =>
    rcases id_of_choose h hid hflow hcall with hempty | hsame
    · exact if_pos hempty
    · exact (if_neg (hsame ▸ hid)).trans hsame

theorem hasId_foldl (deltas : List ToolCallDelta) {id : String} (h : s.HasId slot id)
    (hid : id ≠ "") : (deltas.foldl toolDelta s).HasId slot id := by
  induction deltas generalizing s with
  | nil => exact h
  | cons delta deltas ih => exact ih (hasId_toolDelta h hid)

/-- A delta's id stays with the call that it went to. -/
theorem hasId_assignments {deltas : List ToolCallDelta} (hfits : s.Fits deltas) :
    ∀ x ∈ s.assignments deltas, x.1.id ≠ "" → (deltas.foldl toolDelta s).HasId x.2 x.1.id := by
  induction deltas generalizing s with
  | nil => simp [assignments]
  | cons delta deltas ih =>
    intro x hx hid
    rcases mem_append.mp hx with hx | hx
    · obtain ⟨slot, hslot, rfl⟩ := mem_map.mp hx
      have hhas := hasId_of_choose (Option.mem_toList.mp hslot) hid hfits.1
      exact hasId_foldl deltas hhas hid
    · exact ih hfits.2 x hx hid

/-- Every place among the calls under one index is below a number. -/
structure OrderBelow (s : ToolCalls) (n : Nat) : Prop where
  calls : ∀ e ∈ s.calls.entries, e.1.order < n
  bound : ∀ index slot, s.bound.lookup index = some slot → slot.order < n
  last : ∀ slot, s.lastCall = some slot → slot.order < n

theorem order_of_choose (hs : s.OrderBelow n) (h : s.choose delta = some slot) :
    slot.order < n + 1 := by
  unfold choose at h
  cases hknown : s.known delta with
  | some slot' =>
    rw [hknown] at h
    obtain rfl := some.inj h
    obtain ⟨call, hcall, -⟩ := (known_eq_some hknown).2
    exact Nat.lt_succ_of_lt (hs.calls _ (get?_eq_some_iff.mp hcall))
  | none =>
    rw [hknown] at h
    cases hindex : delta.index with
    | some index =>
      have hcurrent : Slot.order ((s.bound.lookup index).getD (toLex (index, 0))) < n + 1 := by
        cases hbound : s.bound.lookup index with
        | none => exact Nat.succ_pos n
        | some slot' => exact Nat.lt_succ_of_lt (hs.bound index slot' hbound)
      have hafter : Slot.order (s.afterIndex index) < n + 1 := by
        cases hlast : (s.calls.entries.filter fun e => e.1.index = index).getLast? with
        | none =>
          simp [afterIndex, hlast, Slot.order]
        | some e =>
          have hmem := (mem_filter.mp (mem_of_getLast? hlast)).1
          simpa [afterIndex, hlast, Slot.order] using hs.calls e hmem
      simp only [hindex] at h
      split at h
      · split at h <;> obtain rfl := some.inj h
        · exact hafter
        · exact hcurrent
      · obtain rfl := some.inj h
        exact hcurrent
    | none =>
      simp only [hindex] at h
      split at h
      · exact Nat.lt_succ_of_lt (hs.last slot h)
      · obtain rfl := some.inj h
        exact Nat.succ_pos n

theorem OrderBelow.toolDelta (hs : s.OrderBelow n) (delta : ToolCallDelta) :
    (s.toolDelta delta).OrderBelow (n + 1) := by
  unfold ToolCalls.toolDelta
  cases hchoose : s.choose delta with
  | none =>
    exact ⟨fun e he => Nat.lt_succ_of_lt (hs.calls e he),
      fun i slot h => Nat.lt_succ_of_lt (hs.bound i slot h),
      fun slot h => Nat.lt_succ_of_lt (hs.last slot h)⟩
  | some slot =>
    have horder := order_of_choose hs hchoose
    refine ⟨?_, ?_, ?_⟩
    · intro e he
      rcases mem_upsertEntries he with hk | he
      · exact hk ▸ horder
      · exact Nat.lt_succ_of_lt (hs.calls e he)
    · intro index slot' h
      simp only [map_some, getD_some, extendAt] at h
      split at h
      · rw [FinMap.lookup_insert_eq] at h
        split at h
        · exact some.inj h ▸ horder
        · exact Nat.lt_succ_of_lt (hs.bound index slot' h)
      · exact Nat.lt_succ_of_lt (hs.bound index slot' h)
    · intro slot' h
      exact some.inj h ▸ horder

theorem OrderBelow.foldl (deltas : List ToolCallDelta) (hs : s.OrderBelow n) :
    (deltas.foldl ToolCalls.toolDelta s).OrderBelow (n + deltas.length) := by
  induction deltas generalizing s n with
  | nil => exact hs
  | cons delta deltas ih =>
    have hrest := ih (hs.toolDelta delta)
    rwa [Nat.add_assoc, Nat.add_comm 1] at hrest

/-! The ids that are written. -/

theorem writtenId_ne {responseId : String} {i j : Nat} {a b : ToolCall} (hij : i ≠ j)
    (hblank : Text.trim a.id = "" ↔ Text.trim b.id = "")
    (hid : Text.trim a.id ≠ "" → Text.trim a.id ≠ Text.trim b.id) :
    writtenId responseId i a ≠ writtenId responseId j b := by
  unfold writtenId
  by_cases ha : Text.trim a.id = ""
  · rw [if_pos ha, if_pos (hblank.mp ha)]
    intro heq
    have hdigits : (toString i).toList = (toString j).toList := by
      have hlist := congrArg String.toList heq
      simpa [synthesizedCallId] using hlist
    exact hij (Nat.repr_injective (String.toList_inj.mp hdigits))
  · rw [if_neg ha, if_neg (fun hb => ha (hblank.mpr hb))]
    exact hid ha

end ToolCalls

/-! Families of calls. -/

/-- A call as its upstream sends it. -/
structure SentCall where
  index : U64
  id : String
  deltas : List ToolCallDelta

namespace SentCall

/-- A delta of the call, after others: it carries the index, or the id that one of them
carried. -/
def Owns (c : SentCall) (before : List ToolCallDelta) (delta : ToolCallDelta) : Prop :=
  (delta.id = "" ∨ delta.id = c.id) ∧
    (delta.index = some c.index ∨
      delta.index = none ∧ delta.id ≠ "" ∧ ∃ e ∈ before, e.id = delta.id)

structure WellFormed (c : SentCall) : Prop where
  nonempty : c.deltas ≠ []
  owns : ∀ before delta after, c.deltas = before ++ delta :: after → c.Owns before delta

/-- The first of some texts that is not empty. -/
def firstNonempty (texts : List String) : String := (texts.find? (· ≠ "")).getD ""

/-- The call that deltas make: the first identity, and all the fragments. -/
def callOf (deltas : List ToolCallDelta) : ToolCall where
  id := firstNonempty (deltas.map (·.id))
  name := firstNonempty (deltas.map (·.name))
  arguments := String.join (deltas.map (·.arguments))

end SentCall

/-- The deltas of one call, in the order they came. -/
def received (k : Nat) (stream : List (Nat × ToolCallDelta)) : List ToolCallDelta :=
  (stream.filter (·.1 = k)).map Prod.snd

/-- Calls in the order of their indices, with ids of their own. -/
structure Family (calls : List SentCall) : Prop where
  wellFormed : ∀ c ∈ calls, c.WellFormed
  ordered : calls.Pairwise fun c c' => c.index < c'.index
  distinct : calls.Pairwise fun c c' => c.id ≠ "" → c.id ≠ c'.id

/-- A stream of deltas in which each call finds its own in order. -/
structure Interleaves (calls : List SentCall) (stream : List (Nat × ToolCallDelta)) : Prop where
  member : ∀ x ∈ stream, x.1 < calls.length
  received : ∀ k c, calls[k]? = some c → received k stream = c.deltas

namespace SentCall

open ToolCalls

variable {calls : List SentCall} {stream pre post : List (Nat × ToolCallDelta)} {c c' : SentCall}
  {k k' : Nat} {delta : ToolCallDelta} {deltas : List ToolCallDelta} {texts : List String}

theorem firstNonempty_concat (texts : List String) (t : String) :
    firstNonempty (texts ++ [t]) = if firstNonempty texts = "" then t else firstNonempty texts := by
  unfold firstNonempty
  rw [List.find?_append]
  cases h : texts.find? (· ≠ "") with
  | none =>
    by_cases ht : t = ""
    · simp [ht]
    · simp [ht]
  | some u =>
    have hu : u ≠ "" := by simpa using List.find?_some h
    simp [hu]

theorem firstNonempty_mem (h : firstNonempty texts ≠ "") : firstNonempty texts ∈ texts := by
  unfold firstNonempty at h ⊢
  cases hf : texts.find? (· ≠ "") with
  | none => exact absurd (by rw [hf]; rfl) h
  | some t => exact List.mem_of_find?_eq_some hf

theorem firstNonempty_ne {t : String} (h : t ∈ texts) (ht : t ≠ "") : firstNonempty texts ≠ "" := by
  unfold firstNonempty
  cases hf : texts.find? (· ≠ "") with
  | none => exact absurd (List.find?_eq_none.mp hf t h) (by simpa using ht)
  | some u => simpa using List.find?_some hf

theorem callOf_concat (deltas : List ToolCallDelta) (delta : ToolCallDelta) :
    callOf (deltas ++ [delta]) = (callOf deltas).extend delta := by
  simp only [callOf, ToolCall.extend, List.map_append, List.map_cons, List.map_nil,
    firstNonempty_concat, String.join_append, ToolCall.mk.injEq]
  exact ⟨rfl, rfl, by simp⟩

theorem id_callOf (h : ∀ d ∈ deltas, d.id = "" ∨ d.id = c.id) (hne : (callOf deltas).id ≠ "") :
    (callOf deltas).id = c.id := by
  obtain ⟨d, hd, hid⟩ := List.mem_map.mp (firstNonempty_mem hne)
  have heq := hid
  exact heq.symm.trans ((h d hd).resolve_left (heq ▸ hne))

theorem id_callOf_ne (hd : delta ∈ deltas) (hid : delta.id ≠ "") : (callOf deltas).id ≠ "" :=
  firstNonempty_ne (List.mem_map_of_mem hd) hid

theorem received_append (k : Nat) : received k (pre ++ post) = received k pre ++ received k post := by
  simp [received]

theorem received_concat (k : Nat) (x : Nat × ToolCallDelta) :
    received k (pre ++ [x]) = if x.1 = k then received k pre ++ [x.2] else received k pre := by
  by_cases hx : x.1 = k <;> simp [received, hx]

/-- What the state holds after a part of the stream: the calls whose deltas came, each at the
first place under its index. -/
structure Holds (calls : List SentCall) (pre : List (Nat × ToolCallDelta)) (s : ToolCalls) :
    Prop where
  call : ∀ slot call, s.calls.get? slot = some call ↔
    ∃ k c, calls[k]? = some c ∧ slot = toLex (c.index, 0) ∧ received k pre ≠ [] ∧
      call = callOf (received k pre)
  bound : ∀ index slot, s.bound.lookup index = some slot → slot = toLex (index, 0)

/-- Entries of a list that stand at different places are kept apart by a relation. -/
theorem eq_of_pairwise {α : Type} {r : α → α → Prop} {l : List α} (h : l.Pairwise r) {i j : Nat}
    {a b : α} (ha : l[i]? = some a) (hb : l[j]? = some b) (hab : ¬ r a b) (hba : ¬ r b a) :
    i = j := by
  obtain ⟨hi, rfl⟩ := List.getElem?_eq_some_iff.mp ha
  obtain ⟨hj, rfl⟩ := List.getElem?_eq_some_iff.mp hb
  rw [List.pairwise_iff_getElem] at h
  rcases Nat.lt_trichotomy i j with hlt | heq | hgt
  · exact absurd (h i j hi hj hlt) hab
  · exact heq
  · exact absurd (h j i hj hi hgt) hba

theorem slot_inj (hf : Family calls) (hc : calls[k]? = some c)
    (hc' : calls[k']? = some c') (h : c.index = c'.index) : k = k' :=
  eq_of_pairwise hf.ordered hc hc' (h ▸ lt_irrefl _) (h ▸ lt_irrefl _)

theorem id_inj (hf : Family calls) (hc : calls[k]? = some c)
    (hc' : calls[k']? = some c') (hne : c.id ≠ "") (h : c.id = c'.id) : k = k' :=
  eq_of_pairwise hf.distinct hc hc' (fun hd => hd hne h) (fun hd => hd (h ▸ hne) h.symm)

variable {s : ToolCalls}

/-- What came of a call before a delta of it, and that the delta is its next. -/
theorem owns_next (hf : Family calls) (hi : Interleaves calls stream)
    (hstream : stream = pre ++ (k, delta) :: post) (hc : calls[k]? = some c) :
    c.Owns (received k pre) delta ∧ ∀ d ∈ received k pre, d.id = "" ∨ d.id = c.id := by
  have hsplit : c.deltas = received k pre ++ delta :: received k post := by
    rw [← hi.received k c hc, hstream, received_append]
    simp [received]
  have hwf := hf.wellFormed c (List.mem_of_getElem? hc)
  refine ⟨hwf.owns _ _ _ hsplit, ?_⟩
  intro d hd
  obtain ⟨before, after, heq⟩ := List.append_of_mem hd
  exact (hwf.owns before d (after ++ delta :: received k post) (by rw [hsplit, heq]; simp)).1

/-- A delta finds the place of its call. -/
theorem choose_eq (hf : Family calls) (hi : Interleaves calls stream)
    (hstream : stream = pre ++ (k, delta) :: post) (hc : calls[k]? = some c)
    (hs : Holds calls pre s) : s.choose delta = some (toLex (c.index, 0)) := by
  obtain ⟨⟨hid, hindex⟩, hbefore⟩ := owns_next hf hi hstream hc
  have hmine : ∀ call, s.calls.get? (toLex (c.index, 0)) = some call →
      call = callOf (received k pre) := by
    intro call hcall
    obtain ⟨k', c', hc', hslot, -, rfl⟩ := (hs.call _ _).mp hcall
    have hsame : c.index = c'.index := congrArg Slot.index hslot
    rw [slot_inj hf hc hc' hsame]
  unfold choose
  cases hknown : s.known delta with
  | some slot =>
    -- Only the call itself has the id.
    obtain ⟨hne, call, hcall, hcallId⟩ := known_eq_some hknown
    obtain ⟨k', c', hc', rfl, -, rfl⟩ := (hs.call _ _).mp hcall
    have hprefix : ∀ d ∈ received k' pre, d.id = "" ∨ d.id = c'.id := by
      intro d hd
      have hmem : d ∈ received k' stream := by
        rw [hstream, received_append]
        exact List.mem_append_left _ hd
      rw [hi.received k' c' hc'] at hmem
      obtain ⟨before, after, heq⟩ := List.append_of_mem hmem
      exact ((hf.wellFormed c' (List.mem_of_getElem? hc')).owns _ _ _ heq).1
    have hid' : c'.id = c.id := by
      rw [← id_callOf hprefix (hcallId ▸ hne), hcallId]
      exact hid.resolve_left hne
    have hk := id_inj hf hc' hc (hid' ▸ hid.resolve_left hne ▸ hne) hid'
    rw [← hk] at hc
    rw [hc, some.injEq] at hc'
    rw [hc']
  | none =>
    rcases hindex with hindex | ⟨-, hne, e, he, heid⟩
    · have hcurrent : (s.bound.lookup c.index).getD (toLex (c.index, 0)) = toLex (c.index, 0) := by
        cases hbound : s.bound.lookup c.index with
        | none => rfl
        | some slot => exact hs.bound _ _ hbound
      simp only [hindex, hcurrent]
      split
      · next call hcall =>
        rw [if_neg]
        rintro ⟨hne, hcallNe⟩
        refine known_eq_none hknown hne hcall ?_
        rw [hmine call hcall] at hcallNe ⊢
        exact (id_callOf hbefore hcallNe).trans (hid.resolve_left hne).symm
      · rfl
    · -- An earlier delta brought the id, so it is known.
      have hcallNe := id_callOf_ne he (heid ▸ hne)
      have hcall := (hs.call _ _).mpr ⟨k, c, hc, rfl, List.ne_nil_of_mem he, rfl⟩
      refine absurd ?_ (known_eq_none hknown hne hcall)
      exact (id_callOf hbefore hcallNe).trans (hid.resolve_left hne).symm

theorem Holds.toolDelta (hf : Family calls) (hi : Interleaves calls stream)
    (hstream : stream = pre ++ (k, delta) :: post) (hc : calls[k]? = some c)
    (hs : Holds calls pre s) : Holds calls (pre ++ [(k, delta)]) (s.toolDelta delta) := by
  have hchoose := choose_eq hf hi hstream hc hs
  have hold : ((s.calls.get? (toLex (c.index, 0))).getD {}).extend delta =
      callOf (received k pre ++ [delta]) := by
    rw [callOf_concat]
    cases hcall : s.calls.get? (toLex (c.index, 0)) with
    | some call =>
      obtain ⟨k', c', hc', hslot, -, rfl⟩ := (hs.call _ _).mp hcall
      rw [slot_inj hf hc hc' (congrArg Slot.index hslot)]
      rfl
    | none =>
      have hempty : received k pre = [] := by
        by_contra hne
        have := (hs.call _ _).mpr ⟨k, c, hc, rfl, hne, rfl⟩
        rw [hcall] at this
        cases this
      rw [hempty]
      rfl
  rw [ToolCalls.toolDelta, hchoose, map_some, getD_some]
  refine ⟨?_, ?_⟩
  · intro slot call
    rw [extendAt, get?_upsert]
    by_cases hslot : slot = toLex (c.index, 0)
    · rw [if_pos hslot, hold, some.injEq]
      constructor
      · rintro rfl
        refine ⟨k, c, hc, hslot, ?_, ?_⟩ <;> rw [received_concat, if_pos rfl]
        simp
      · rintro ⟨k', c', hc', hslot', -, rfl⟩
        have hk := slot_inj hf hc hc' (congrArg Slot.index (hslot.symm.trans hslot'))
        rw [← hk, received_concat, if_pos rfl]
    · rw [if_neg hslot, hs.call]
      refine exists_congr fun k' => exists_congr fun c' => ?_
      refine and_congr_right fun hc' => and_congr_right fun hslot' => ?_
      have hk : ¬ k = k' := by
        rintro rfl
        rw [hc, some.injEq] at hc'
        exact hslot (hc' ▸ hslot')
      rw [received_concat, if_neg hk]
  · intro index slot hbound
    rw [extendAt] at hbound
    split at hbound
    · next index' hindex =>
      rw [FinMap.lookup_insert_eq] at hbound
      split at hbound
      · next heq =>
        have howns := (owns_next hf hi hstream hc).1.2
        rw [hindex] at howns
        rcases howns with howns | ⟨howns, -⟩
        · rw [← some.inj hbound, heq, some.inj howns]
        · cases howns
      · exact hs.bound _ _ hbound
    · exact hs.bound _ _ hbound

/-- However the deltas of a family are interleaved, each call is made of its own. -/
theorem holds_assemble (hf : Family calls) (hi : Interleaves calls stream) :
    Holds calls stream (assemble (stream.map Prod.snd)) := by
  suffices hrun : ∀ pre post, stream = pre ++ post → ∀ s, Holds calls pre s →
      Holds calls stream ((post.map Prod.snd).foldl ToolCalls.toolDelta s) by
    refine hrun [] stream rfl {} ⟨?_, ?_⟩
    · simp [received]
    · intro index slot h
      cases h
  intro pre post hsplit
  induction post generalizing pre with
  | nil =>
    intro s hs
    rw [List.append_nil] at hsplit
    exact hsplit ▸ hs
  | cons x post ih =>
    intro s hs
    have hlt : x.1 < calls.length := hi.member x (by simp [hsplit])
    obtain ⟨c, hc⟩ : ∃ c, calls[x.1]? = some c := ⟨_, List.getElem?_eq_getElem hlt⟩
    exact ih (pre ++ [x]) (by simp [hsplit]) _ (hs.toolDelta hf hi hsplit hc)

theorem entries_assemble (hf : Family calls) (hi : Interleaves calls stream) :
    (assemble (stream.map Prod.snd)).calls.entries =
      calls.map fun c => (toLex (c.index, 0), callOf c.deltas) := by
  refine entries_eq ?_ ?_
  · refine List.pairwise_map.mpr (hf.ordered.imp ?_)
    intro c c' hlt
    exact Prod.Lex.lt_iff.mpr (.inl hlt)
  · intro slot call
    rw [(holds_assemble hf hi).call, List.mem_map]
    constructor
    · rintro ⟨k, c, hc, rfl, -, rfl⟩
      exact ⟨c, List.mem_of_getElem? hc, by rw [hi.received k c hc]⟩
    · rintro ⟨c, hc, heq⟩
      obtain ⟨k, hk⟩ := List.mem_iff_getElem?.mp hc
      obtain ⟨rfl, rfl⟩ := Prod.mk.inj heq
      refine ⟨k, c, hk, rfl, ?_, by rw [hi.received k c hk]⟩
      rw [hi.received k c hk]
      exact (hf.wellFormed c hc).nonempty

end SentCall

/-! What a client gets. -/

open ToolCalls SentCall

def sentPair : List SentCall :=
  [⟨0, "a", [⟨some 0, "a", "f", "\x7b"⟩, ⟨some 0, "", "", "\x7d"⟩]⟩,
    ⟨1, "b", [⟨some 1, "b", "g", "1"⟩, ⟨none, "b", "", "2"⟩]⟩]

def sentStream : List (Nat × ToolCallDelta) :=
  [(1, ⟨some 1, "b", "g", "1"⟩), (0, ⟨some 0, "a", "f", "\x7b"⟩), (1, ⟨none, "b", "", "2"⟩),
    (0, ⟨some 0, "", "", "\x7d"⟩)]

theorem wellFormed_pair {c : SentCall} {d e : ToolCallDelta} (h : c.deltas = [d, e])
    (hd : c.Owns [] d) (he : c.Owns [d] e) : c.WellFormed := by
  refine ⟨by simp [h], ?_⟩
  intro before delta after heq
  rw [h] at heq
  rcases before with _ | ⟨x, _ | ⟨y, before⟩⟩
  · obtain ⟨rfl, -⟩ := List.cons.inj heq
    exact hd
  · obtain ⟨rfl, htail⟩ := List.cons.inj heq
    obtain ⟨rfl, -⟩ := List.cons.inj htail
    exact he
  · simp at heq

/-- After a call with the largest index, a call without one may fall in with the first. -/
example : (assemble [⟨some usizeMax, "a", "f", ""⟩, ⟨some 0, "b", "g", "1"⟩,
    ⟨none, "c", "h", "2"⟩]).calls.values = [⟨"b", "g", "12"⟩, ⟨"a", "f", ""⟩] := by
  decide

end AciGateway.Transform
