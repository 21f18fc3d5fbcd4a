import AciGateway.Lib.JsonMap
import AciGateway.Lib.Results

/-! Walks over a JSON value that rewrite the texts at some places. A walk may fail and counts
what it rewrote; its counterpart is a plain map over the same places, and a list of them. -/
namespace Json

open Results

variable {ε : Type} {k : String} {ms : Members}

/-- A place: how its path is spelled, and the text that stands there. -/
abbrev Place := String × String

/-- A rewriting of a value, with the number of texts it rewrote. -/
abbrev Visit (ε : Type) := Value → Except ε (Nat × Value)

/-- Rewrite the member under `k`. -/
def visitMember (k : String) (f : Visit ε) : Members → Except ε (Nat × Members)
  | [] => .ok (0, [])
  | (k', v) :: ms =>
    if k' = k then (f v).map (fun r => (r.1, (k', r.2) :: ms))
    else (visitMember k f ms).map (fun r => (r.1, (k', v) :: r.2))

def visitObj (k : String) (f : Visit ε) : Visit ε
  | .obj ms => (visitMember k f ms).map (fun r => (r.1, .obj r.2))
  | v => .ok (0, v)

/-- Rewrite the items one after the other; the walk of an item may use its index. -/
def visitItems (f : Nat → Visit ε) : List Value → Except ε (Nat × List Value)
  | [] => .ok (0, [])
  | v :: vs => do
    let r ← f 0 v
    let rs ← visitItems (fun i => f (i + 1)) vs
    pure (r.1 + rs.1, r.2 :: rs.2)

def visitArr (f : Nat → Visit ε) : Visit ε
  | .arr vs => (visitItems f vs).map (fun r => (r.1, .arr r.2))
  | v => .ok (0, v)

def mapMember (k : String) (g : Value → Value) : Members → Members
  | [] => []
  | (k', v) :: ms => if k' = k then (k', g v) :: ms else (k', v) :: mapMember k g ms

def mapObj (k : String) (g : Value → Value) : Value → Value
  | .obj ms => .obj (mapMember k g ms)
  | v => v

def mapArr (g : Nat → Value → Value) : Value → Value
  | .arr vs => .arr (vs.mapIdx g)
  | v => v

def placesObj (k : String) (l : Value → List Place) : Value → List Place
  | .obj ms => ((ms.lookup k).map l).getD []
  | _ => []

def placesArr (l : Nat → Value → List Place) : Value → List Place
  | .arr vs => (vs.mapIdx l).flatten
  | _ => []

theorem lookup_mapMember (g : Value → Value) (k' : String) :
    (mapMember k g ms).lookup k' =
      if k' = k then (ms.lookup k').map g else ms.lookup k' := by
  induction ms with
  | nil => simp [mapMember]
  | cons m ms ih =>
    unfold mapMember
    by_cases hm : m.1 = k
    · rw [if_pos hm, lookup_cons_eq, lookup_cons_eq]
      by_cases hk : k' = m.1
      · simp [hk, hm]
      · have hne : ¬ k' = k := fun h => hk (h.trans hm.symm)
        simp [hk, hne]
    · rw [if_neg hm, lookup_cons_eq, lookup_cons_eq, ih]
      by_cases hk : k' = m.1
      · have hne : ¬ m.1 = k := hm
        simp [hk, hne]
      · simp [hk]

theorem get?_mapObj (g : Value → Value) {k' : String} (h : k' ≠ k) (v : Value) :
    (mapObj k g v).get? k' = v.get? k' := by
  cases v with
  | obj ms => exact (lookup_mapMember g k').trans (if_neg h)
  | _ => rfl

theorem mapMember_id : mapMember k id ms = ms := by
  induction ms with
  | nil => rfl
  | cons m ms ih => simp [mapMember, ih]

@[simp] theorem mapObj_id : mapObj k id = id := by
  funext v
  cases v with
  | obj ms => exact congrArg Value.obj mapMember_id
  | _ => rfl

@[simp] theorem mapArr_id : mapArr (fun _ => id) = id := by
  funext v
  cases v with
  | arr vs => exact congrArg Value.arr (List.ext_getElem (by simp) (by simp))
  | _ => rfl

theorem mapMember_mapMember (g h : Value → Value) :
    mapMember k h (mapMember k g ms) = mapMember k (fun v => h (g v)) ms := by
  induction ms with
  | nil => rfl
  | cons m ms ih =>
    by_cases hm : m.1 = k
    · simp [mapMember, hm]
    · simp [mapMember, hm, ih]

theorem mapObj_mapObj (g h : Value → Value) (v : Value) :
    mapObj k h (mapObj k g v) = mapObj k (fun v => h (g v)) v := by
  cases v with
  | obj ms => simp only [mapObj, mapMember_mapMember]
  | _ => rfl

theorem mapArr_mapArr (g h : Nat → Value → Value) (v : Value) :
    mapArr h (mapArr g v) = mapArr (fun i v => h i (g i v)) v := by
  cases v with
  | arr vs => simp [mapArr, List.mapIdx_mapIdx, Function.comp_def]
  | _ => rfl

/-! A walk restores `h` from `g` when it undoes `g` at every listed place. -/

/-- `f` undoes `g` up to `h`, one text for each place. -/
def Restores (f : Visit ε) (g h : Value → Value) (places : Value → List Place) : Prop :=
  ∀ v, f (g v) = .ok ((places v).length, h v)

section Restores

variable {f : Visit ε} {g h : Value → Value} {l : Value → List Place}

theorem visitMember_mapMember (hf : Restores f g h l) :
    visitMember k f (mapMember k g ms) =
      .ok ((((ms.lookup k).map l).getD []).length, mapMember k h ms) := by
  induction ms with
  | nil => rfl
  | cons m ms ih =>
    rw [lookup_cons_eq]
    unfold mapMember
    by_cases hm : m.1 = k
    · rw [if_pos hm, if_pos hm, if_pos hm.symm, visitMember, if_pos hm, hf]
      rfl
    · rw [if_neg hm, if_neg hm, if_neg (fun he => hm he.symm), visitMember, if_neg hm, ih]
      rfl

theorem restores_obj (hf : Restores f g h l) :
    Restores (visitObj k f) (mapObj k g) (mapObj k h) (placesObj k l) := by
  intro v
  cases v with
  | obj ms => rw [mapObj, visitObj, visitMember_mapMember hf]; rfl
  | _ => rfl

theorem restores_items {f : Nat → Visit ε} {g h : Nat → Value → Value}
    {l : Nat → Value → List Place} (hf : ∀ i, Restores (f i) (g i) (h i) (l i)) (vs : List Value) :
    visitItems f (vs.mapIdx g) = .ok ((vs.mapIdx l).flatten.length, vs.mapIdx h) := by
  induction vs generalizing f g h l with
  | nil => rfl
  | cons v vs ih =>
    rw [List.mapIdx_cons, List.mapIdx_cons, List.mapIdx_cons, visitItems, hf 0 v,
      ih (fun i => hf (i + 1))]
    simp [bind, Except.bind, pure, Except.pure]

theorem restores_arr {f : Nat → Visit ε} {g h : Nat → Value → Value}
    {l : Nat → Value → List Place} (hf : ∀ i, Restores (f i) (g i) (h i) (l i)) :
    Restores (visitArr f) (mapArr g) (mapArr h) (placesArr l) := by
  intro v
  cases v with
  | arr vs => rw [mapArr, visitArr, restores_items hf]; rfl
  | _ => rfl

end Restores

/-! A walk that succeeds has opened every listed place; one that fails does so in one way. -/

/-- If `f` succeeds, `opened` holds of every place; if it fails, then with `e`. -/
structure Opens (opened : Place → Prop) (e : ε) (f : Visit ε) (places : Value → List Place) :
    Prop where
  ok : ∀ {v r}, f v = .ok r → ∀ x ∈ places v, opened x
  error : ∀ {v x}, f v = .error x → x = e

section Opens

variable {opened : Place → Prop} {e x : ε} {f : Visit ε} {l : Value → List Place}

theorem opens_member (hf : Opens opened e f l) {v : Value} {r : Nat × Members}
    (h : visitMember k f ms = .ok r) (hv : ms.lookup k = some v) : ∀ x ∈ l v, opened x := by
  induction ms generalizing r with
  | nil => cases hv
  | cons m ms ih =>
    rw [lookup_cons_eq] at hv
    unfold visitMember at h
    by_cases hm : m.1 = k
    · rw [if_pos hm, map_eq_ok] at h
      rw [if_pos hm.symm] at hv
      obtain ⟨r', hr', -⟩ := h
      rw [← Option.some.inj hv]
      exact hf.ok hr'
    · rw [if_neg hm, map_eq_ok] at h
      rw [if_neg (fun he => hm he.symm)] at hv
      obtain ⟨r', hr', -⟩ := h
      exact ih hr' hv

theorem fails_member (hf : Opens opened e f l) (h : visitMember k f ms = .error x) : x = e := by
  induction ms with
  | nil => cases h
  | cons m ms ih =>
    unfold visitMember at h
    by_cases hm : m.1 = k
    · rw [if_pos hm, map_eq_error] at h
      exact hf.error h
    · rw [if_neg hm, map_eq_error] at h
      exact ih h

theorem opens_obj (hf : Opens opened e f l) : Opens opened e (visitObj k f) (placesObj k l) where
  ok := by
    intro v r h x hx
    cases v with
    | obj ms =>
      rw [visitObj, map_eq_ok] at h
      obtain ⟨r', hr', -⟩ := h
      cases hv : ms.lookup k with
      | none => simp [placesObj, hv] at hx
      | some v =>
        rw [placesObj, hv] at hx
        exact opens_member hf hr' hv x hx
    | _ => cases hx
  error := by
    intro v x h
    cases v with
    | obj ms => exact fails_member hf (map_eq_error.mp h)
    | _ => cases h

variable {F : Nat → Visit ε} {L : Nat → Value → List Place} {vs : List Value}

theorem opens_items (hf : ∀ i, Opens opened e (F i) (L i)) {r : Nat × List Value}
    (h : visitItems F vs = .ok r) : ∀ x ∈ (vs.mapIdx L).flatten, opened x := by
  induction vs generalizing F L r with
  | nil => simp
  | cons v vs ih =>
    simp only [visitItems, bind_eq_ok] at h
    obtain ⟨r', hr', rs, hrs, -⟩ := h
    intro x hx
    rw [List.mapIdx_cons, List.flatten_cons, List.mem_append] at hx
    rcases hx with hx | hx
    · exact (hf 0).ok hr' x hx
    · exact ih (fun i => hf (i + 1)) hrs x hx

theorem fails_items (hf : ∀ i, Opens opened e (F i) (L i)) (h : visitItems F vs = .error x) : x = e := by
  induction vs generalizing F L with
  | nil => cases h
  | cons v vs ih =>
    simp only [visitItems, bind_eq_error] at h
    rcases h with h | ⟨r, -, h | ⟨rs, -, h⟩⟩
    · exact (hf 0).error h
    · exact ih (fun i => hf (i + 1)) h
    · cases h

theorem opens_arr (hf : ∀ i, Opens opened e (F i) (L i)) :
    Opens opened e (visitArr F) (placesArr L) where
  ok := by
    intro v r h x hx
    cases v with
    | arr vs =>
      rw [visitArr, map_eq_ok] at h
      obtain ⟨r', hr', -⟩ := h
      exact opens_items hf hr' x hx
    | _ => cases hx
  error := by
    intro v x h
    cases v with
    | arr vs => exact fails_items hf (map_eq_error.mp h)
    | _ => cases h

/-- A walk that passes everything through. -/
theorem opens_skip : Opens opened e (fun v => .ok (0, v)) (fun _ => []) where
  ok := by simp
  error := by simp

/-- A walk may choose how to go on by the value it is given. -/
theorem opens_of_choice
    (h : ∀ v, ∃ f' l', Opens opened e f' l' ∧ f v = f' v ∧ l v = l' v) : Opens opened e f l where
  ok := by
    intro v r hr x hx
    obtain ⟨f', l', ho, hf, hl⟩ := h v
    exact ho.ok (hf ▸ hr) x (hl ▸ hx)
  error := by
    intro v x hx
    obtain ⟨f', l', ho, hf, -⟩ := h v
    exact ho.error (hf ▸ hx)

end Opens

end Json
