import AciGateway.Digest
import AciGateway.Lib.Jcs
import AciGateway.Lib.JsonDocument

/-! Canonical bytes identify the document: they are equal exactly for documents that differ
in member order only, and they read back to a document with the same canonical bytes. They
are the bytes of RFC 8785 exactly when every integer survives as a double. -/
namespace AciGateway.Digest

open Octets Json Lists Jcs List

variable {v w x y : Value} {ms ns out : Members} {a b : Bytes} {k : String} (n : Nat)

/-- `n` is the canonical form of the member `m`. -/
def CanonicalMember (m n : String × Value) : Prop :=
  n.1 = m.1 ∧ isAscii m.1 ∧ sorted m.2 = .ok n.2

def byName (ms : Members) : Members := ms.insertionSort (fun a b => a.1 ≤ b.1)

theorem mem_byName {m : String × Value} : m ∈ byName ms ↔ m ∈ ms := mem_insertionSort _

theorem canonicalMember_iff {m n : String × Value} :
    checkMember (m.1, sorted m.2) = .ok n ↔ CanonicalMember m n := by
  obtain ⟨k, v⟩ := m
  obtain ⟨k', w⟩ := n
  unfold checkMember CanonicalMember
  cases isAscii k with
  | false => simp
  | true =>
    cases sorted v with
    | error e => simp [Except.map]
    | ok x => simp [Except.map, eq_comm]

/-- The members of a canonical object, one by one in name order. -/
theorem sorted_obj_iff : sorted (.obj ms) = .ok w ↔
    ∃ out, w = .obj out ∧ Forall₂ CanonicalMember (byName ms) out := by
  have hmap := map_insertionSort (fun a b => a.1 ≤ b.1) (fun a b => a.1 ≤ b.1)
    (fun m : String × Value => (m.1, sorted m.2)) ms (fun _ _ _ _ => Iff.rfl)
  have hf : ∀ out, Forall₂ (fun m n => checkMember m = .ok n)
      ((sortedMembers ms).insertionSort (fun a b => a.1 ≤ b.1)) out ↔
        Forall₂ CanonicalMember (byName ms) out := by
    intro out
    rw [sortedMembers_eq, ← hmap, forall₂_map_left_iff, byName]
    simp only [canonicalMember_iff]
  constructor
  · intro h
    obtain ⟨out, rfl, hm⟩ := sorted_obj h
    exact ⟨out, rfl, (hf out).mp hm⟩
  · rintro ⟨out, rfl, hm⟩
    rw [sorted, mapM_ok_iff.mpr ((hf out).mpr hm)]
    rfl

theorem keys_canonicalMembers {l : Members} (h : Forall₂ CanonicalMember l out) :
    out.map Prod.fst = l.map Prod.fst := by
  induction h with
  | nil => rfl
  | cons hm _ ih => simp [hm.1, ih]

/-- Canonical members are in name order. -/
theorem pairwise_canonicalMembers (h : Forall₂ CanonicalMember (byName ms) out) :
    out.Pairwise (fun a b => a.1 ≤ b.1) := by
  have hs : (byName ms).Pairwise (fun a b => a.1 ≤ b.1) := pairwise_insertionSort _ ms
  have hkeys : ((byName ms).map Prod.fst).Pairwise (· ≤ ·) := pairwise_map.mpr hs
  rw [← keys_canonicalMembers h] at hkeys
  exact pairwise_map.mp hkeys

theorem nodup_byName (h : (ms.map Prod.fst).Nodup) : ((byName ms).map Prod.fst).Nodup :=
  ((perm_insertionSort _ ms).map Prod.fst).nodup_iff.mpr h

/-- The items of a canonical array, one by one. -/
theorem sorted_arr_iff {vs : List Value} : sorted (.arr vs) = .ok w ↔
    ∃ ws, w = .arr ws ∧ Forall₂ (fun v w => sorted v = .ok w) vs ws := by
  constructor
  · exact sorted_arr
  · rintro ⟨ws, rfl, hf⟩
    have hs : sortedItems vs = .ok ws := by
      induction hf with
      | nil => rfl
      | cons hv _ ih => rw [sortedItems, hv, ih]; rfl
    rw [sorted, hs]
    rfl

/-- Induction over a value and its canonical form: a scalar is its own, a container has the
canonical forms of its items or members. -/
theorem sorted_induction {P : Value → Value → Prop}
    (scalar : ∀ v, depth v = 0 → sorted v = .ok v → P v v)
    (arr : ∀ vs ws, Forall₂ (fun v w => sorted v = .ok w ∧ P v w) vs ws →
      P (.arr vs) (.arr ws))
    (obj : ∀ ms out, Forall₂ (fun m n => CanonicalMember m n ∧ P m.2 n.2) (byName ms) out →
      P (.obj ms) (.obj out)) : ∀ {w : Value}, sorted v = .ok w → P v w := by
  induction v using Value.ind with
  | null => intro w h; cases h; exact scalar _ rfl rfl
  | bool b => intro w h; cases h; exact scalar _ rfl rfl
  | num n =>
    intro w h
    cases n with
    | float f => cases h
    | posInt n => cases h; exact scalar _ rfl rfl
    | negInt m => cases h; exact scalar _ rfl rfl
  | str s => intro w h; cases h; exact scalar _ rfl rfl
  | arr vs ih =>
    intro w h
    obtain ⟨ws, rfl, hf⟩ := sorted_arr h
    exact arr vs ws (forall₂_imp_mem hf (fun v hv _ _ hs => ⟨hs, ih v hv hs⟩))
  | obj ms ih =>
    intro w h
    obtain ⟨out, rfl, hf⟩ := sorted_obj_iff.mp h
    exact obj ms out (forall₂_imp_mem hf (fun m hm _ _ hc => ⟨hc, ih m (mem_byName.mp hm) hc.2.2⟩))

/-- Sorting again changes nothing. -/
theorem sorted_sorted (h : sorted v = .ok w) : sorted w = .ok w := by
  refine sorted_induction (P := fun _ w => sorted w = .ok w) (fun v _ hv => hv) ?_ ?_ h
  · intro vs ws hf
    refine sorted_arr_iff.mpr ⟨ws, rfl, forall₂_same.mpr ?_⟩
    intro x hx
    obtain ⟨v, -, -, hs⟩ := exists_left_of_mem hf hx
    exact hs
  · intro ms out hf
    have hcanon := hf.imp (fun _ _ hm => hm.1)
    refine sorted_obj_iff.mpr ⟨out, rfl, ?_⟩
    rw [byName, (pairwise_canonicalMembers hcanon).insertionSort_eq]
    refine forall₂_same.mpr ?_
    intro n hn
    obtain ⟨m, -, ⟨hk, ha, -⟩, hs⟩ := exists_left_of_mem hf hn
    exact ⟨rfl, hk ▸ ha, hs⟩

theorem depth_sorted (h : sorted v = .ok w) : depth w = depth v := by
  refine sorted_induction (P := fun v w => depth w = depth v) (fun _ _ _ => rfl) ?_ ?_ h
  · intro vs ws hf
    have hle : ∀ n, depthItems ws ≤ n ↔ depthItems vs ≤ n := by
      intro n
      rw [depthItems_le_iff, depthItems_le_iff]
      constructor
      · intro hw v hv
        obtain ⟨x, hx, -, hd⟩ := exists_right_of_mem hf hv
        exact hd ▸ hw x hx
      · intro hv x hx
        obtain ⟨v, hm, -, hd⟩ := exists_left_of_mem hf hx
        exact hd.symm ▸ hv v hm
    rw [depth, depth, eq_of_forall_ge_iff hle]
  · intro ms out hf
    have hle : ∀ n, depthMembers out ≤ n ↔ depthMembers ms ≤ n := by
      intro n
      rw [depthMembers_le_iff, depthMembers_le_iff]
      constructor
      · intro hw m hm
        obtain ⟨x, hx, -, hd⟩ := exists_right_of_mem hf (mem_byName.mpr hm)
        exact hd ▸ hw x hx
      · intro hv x hx
        obtain ⟨m, hm, -, hd⟩ := exists_left_of_mem hf hx
        exact hd.symm ▸ hv m (mem_byName.mp hm)
    rw [depth, depth, eq_of_forall_ge_iff hle]

theorem uniqueKeys_sorted (h : sorted v = .ok w) : uniqueKeys v → uniqueKeys w := by
  refine sorted_induction (P := fun v w => uniqueKeys v → uniqueKeys w) (fun _ _ _ hu => hu) ?_ ?_ h
  · intro vs ws hf hu
    refine uniqueKeysItems_iff.mpr ?_
    intro x hx
    obtain ⟨v, hv, -, hs⟩ := exists_left_of_mem hf hx
    exact hs (uniqueKeysItems_iff.mp hu v hv)
  · intro ms out hf hu
    have hcanon := hf.imp (fun _ _ hm => hm.1)
    rw [uniqueKeys_obj] at hu
    refine uniqueKeys_obj.mpr ⟨?_, ?_⟩
    · rw [keys_canonicalMembers hcanon]
      exact nodup_byName hu.1
    · intro n hn
      obtain ⟨m, hm, -, hs⟩ := exists_left_of_mem hf hn
      exact hs (hu.2 m (mem_byName.mp hm))

/-! The canonical form has the shape of the value. -/

theorem sorted_eq_scalar (h : sorted v = .ok w) : depth w = 0 → v = w := by
  refine sorted_induction (P := fun v w => depth w = 0 → v = w) (fun _ _ _ _ => rfl) ?_ ?_ h
  · intro vs ws _ hd
    cases hd
  · intro ms out _ hd
    cases hd

theorem sorted_eq_arr {ws : List Value} (h : sorted v = .ok (.arr ws)) :
    ∃ vs, v = .arr vs ∧ Forall₂ (fun v w => sorted v = .ok w) vs ws := by
  refine sorted_induction (P := fun v w => w = .arr ws →
    ∃ vs, v = .arr vs ∧ Forall₂ (fun v w => sorted v = .ok w) vs ws) ?_ ?_ ?_ h rfl
  · rintro _ hd _ rfl
    cases hd
  · rintro vs _ hf ⟨⟩
    exact ⟨vs, rfl, hf.imp (fun _ _ hs => hs.1)⟩
  · rintro ms out hf ⟨⟩

theorem sorted_eq_obj (h : sorted v = .ok (.obj out)) :
    ∃ ms, v = .obj ms ∧ Forall₂ CanonicalMember (byName ms) out := by
  refine sorted_induction (P := fun v w => w = .obj out →
    ∃ ms, v = .obj ms ∧ Forall₂ CanonicalMember (byName ms) out) ?_ ?_ ?_ h rfl
  · rintro _ hd _ rfl
    cases hd
  · rintro vs ws hf ⟨⟩
  · rintro ms _ hf ⟨⟩
    exact ⟨ms, rfl, hf.imp (fun _ _ hs => hs.1)⟩

theorem length_canonicalMembers (h : Forall₂ CanonicalMember (byName ms) out) :
    out.length = ms.length := by
  rw [← h.length_eq, byName, length_insertionSort]

/-- Documents with one canonical form differ in member order only. -/
theorem same_of_sorted (hx : sorted v = .ok x) : ∀ {w : Value}, uniqueKeys v → uniqueKeys w →
    sorted w = .ok x → same v w := by
  refine sorted_induction (P := fun v x => ∀ {w : Value}, uniqueKeys v → uniqueKeys w →
    sorted w = .ok x → same v w) ?_ ?_ ?_ hx
  · intro v hd _ w _ _ hw
    rw [sorted_eq_scalar hw hd]
    exact same_of_scalar hd
  · intro vs xs hf w hu hu' hw
    obtain ⟨ws, rfl, hg⟩ := sorted_eq_arr hw
    rw [uniqueKeys, uniqueKeysItems_iff] at hu hu'
    refine sameItems_iff.mpr (forall₂_common hf hg ?_)
    intro v hv w hw x hvx hwx
    exact hvx.2 (hu v hv) (hu' w hw) hwx
  · intro ms out hf w hu hu' hw
    obtain ⟨ns, rfl, hg⟩ := sorted_eq_obj hw
    rw [uniqueKeys_obj] at hu hu'
    have hlen := length_canonicalMembers (hf.imp (fun _ _ hm => hm.1))
    refine same_obj.mpr ⟨hlen.symm.trans (length_canonicalMembers hg), sameMembers_iff.mpr ?_⟩
    intro m hm
    obtain ⟨x, hx, ⟨hk, -, -⟩, ih⟩ := exists_right_of_mem hf (mem_byName.mpr hm)
    obtain ⟨n, hn, hk', -, hs⟩ := exists_left_of_mem hg hx
    have hn := mem_byName.mp hn
    refine ⟨n.2, (lookup_eq_some_iff hu'.1).mpr ?_, ih (hu.2 m hm) (hu'.2 n hn) hs⟩
    rwa [show (m.1, n.2) = n from Prod.ext (hk.symm.trans hk') rfl]

/-- Documents that differ in member order only have one canonical form. -/
theorem sorted_of_same (hx : sorted v = .ok x) : ∀ {w y : Value}, uniqueKeys v → uniqueKeys w →
    sorted w = .ok y → same v w → x = y := by
  refine sorted_induction (P := fun v x => ∀ {w y : Value}, uniqueKeys v → uniqueKeys w →
    sorted w = .ok y → same v w → x = y) ?_ ?_ ?_ hx
  · intro v hd hv w y _ _ hw hsame
    have heq : v = w := by
      cases v <;> cases w <;> simp_all [same, depth]
    rw [heq, hw] at hv
    exact heq.trans (Except.ok.inj hv).symm
  · intro vs xs hf w y hu hu' hw hsame
    cases w with
    | arr ws =>
      obtain ⟨ys, rfl, hg⟩ := sorted_arr hw
      rw [uniqueKeys, uniqueKeysItems_iff] at hu hu'
      rw [same, sameItems_iff] at hsame
      congr 1
      clear hw hx
      induction hf generalizing ws ys with
      | nil => cases hsame; cases hg; rfl
      | cons hv _ ih =>
        cases hsame with
        | cons hvw hsame =>
          cases hg with
          | cons hw hg =>
            rw [forall_mem_cons] at hu hu'
            rw [hv.2 hu.1 hu'.1 hw hvw, ih hu.2 _ hu'.2 hsame _ hg]
    | _ => cases hsame
  · intro ms out hf w y hu hu' hw hsame
    cases w with
    | obj ns =>
      obtain ⟨out', rfl, hg⟩ := sorted_obj_iff.mp hw
      rw [uniqueKeys_obj] at hu hu'
      rw [same_obj, sameMembers_iff] at hsame
      have hcanon := hf.imp (fun _ _ hm => hm.1)
      have hsub : out ⊆ out' := by
        intro x hx
        obtain ⟨m, hm, ⟨hk, -, -⟩, ih⟩ := exists_left_of_mem hf hx
        have hm := mem_byName.mp hm
        obtain ⟨u, hlook, hsame⟩ := hsame.2 m hm
        have hn := (lookup_eq_some_iff hu'.1).mp hlook
        obtain ⟨y, hy, hk', -, hs⟩ := exists_right_of_mem hg (mem_byName.mpr hn)
        have hxy := ih (hu.2 m hm) (hu'.2 _ hn) hs hsame
        rwa [show x = y from Prod.ext (hk.trans hk'.symm) hxy]
      have hnodup : (out.map Prod.fst).Nodup := by
        rw [keys_canonicalMembers hcanon]
        exact nodup_byName hu.1
      have hlen : out'.length ≤ out.length := by
        rw [length_canonicalMembers hg, length_canonicalMembers hcanon, hsame.1]
      have hperm := (subperm_of_subset hnodup.of_map hsub).perm_of_length_le hlen
      congr 1
      refine hperm.eq_of_pairwise ?_ (pairwise_canonicalMembers hcanon)
        (pairwise_canonicalMembers hg)
      intro x y hx hy hle hge
      exact inj_on_of_nodup_map hnodup hx (hperm.mem_iff.mpr hy) (le_antisymm hle hge)
    | _ => cases hsame

/-- Values with a canonical form have no floats and ASCII names only. -/
theorem canonical_of_sorted (h : sorted v = .ok w) : canonical v := by
  refine sorted_induction (P := fun v _ => canonical v) ?_ ?_ ?_ h
  · intro v hd hv
    cases v with
    | num n => cases n <;> first | rfl | cases hv
    | arr vs => cases hd
    | obj ms => cases hd
    | _ => rfl
  · intro vs ws hf
    refine canonicalItems_iff.mpr ?_
    intro v hv
    obtain ⟨w, -, -, hc⟩ := exists_right_of_mem hf hv
    exact hc
  · intro ms out hf
    refine canonicalMembers_iff.mpr ?_
    intro m hm
    obtain ⟨n, -, ⟨-, ha, -⟩, hc⟩ := exists_right_of_mem hf (mem_byName.mpr hm)
    exact ⟨ha, hc⟩

/-- Having a canonical form does not depend on member order. -/
theorem canonical_of_same : ∀ {w : Value}, same v w → canonical w → canonical v := by
  induction v using Value.ind with
  | num n =>
    intro w hsame hc
    cases w with
    | num m => rwa [show n = m by simpa [same] using hsame]
    | _ => cases hsame
  | arr vs ih =>
    intro w hsame hc
    cases w with
    | arr ws =>
      rw [same, sameItems_iff] at hsame
      refine canonicalItems_iff.mpr ?_
      intro v hv
      obtain ⟨w, hw, hvw⟩ := exists_right_of_mem hsame hv
      exact ih v hv hvw (canonicalItems_iff.mp hc w hw)
    | _ => cases hsame
  | obj ms ih =>
    intro w hsame hc
    cases w with
    | obj ns =>
      rw [same_obj, sameMembers_iff] at hsame
      refine canonicalMembers_iff.mpr ?_
      intro m hm
      obtain ⟨u, hlook, hmu⟩ := hsame.2 m hm
      obtain ⟨ha, hu⟩ := canonicalMembers_iff.mp hc _ (mem_of_lookup hlook)
      exact ⟨ha, ih m hm hmu hu⟩
    | _ => cases hsame
  | _ => intro w _ _; rfl

/-- Documents have the same canonical bytes exactly when they differ in member order only. -/
theorem jcsBytes_eq_iff_same (hv : uniqueKeys v) (hw : uniqueKeys w) (hb : jcsBytes w = .ok b) :
    jcsBytes v = .ok b ↔ same v w := by
  constructor
  · intro ha
    obtain ⟨x, hx, hy⟩ := sorted_of_jcsBytes ha hb
    exact same_of_sorted hx hv hw hy
  · intro hsame
    obtain ⟨y, hy, rfl⟩ := jcsBytes_ok hb
    obtain ⟨x, hx⟩ := sorted_of_canonical (canonical_of_same hsame (canonical_of_sorted hy))
    rw [jcsBytes, hx, sorted_of_same hx hv hw hy hsame]
    rfl

/-- Canonical bytes are equal exactly for documents that differ in member order only. A
document nested no deeper than the reader allows is read back from its canonical bytes, and
what is read has them again; canonical bytes of a deeper one are not read at all. -/
theorem jcsBytes_identify (round : Bytes → Option FloatText) (hv : uniqueKeys v)
    (hw : uniqueKeys w) (ha : jcsBytes v = .ok a) (hb : jcsBytes w = .ok b) :
    (a = b ↔ same v w) ∧
      (depth v ≤ recursionLimit →
        ∃ x, fromSlice round a = some x ∧ uniqueKeys x ∧ jcsBytes x = .ok a) ∧
      (recursionLimit < depth v → fromSlice round a = none) := by
  have hiff : a = b ↔ same v w := by
    rw [← jcsBytes_eq_iff_same hv hw hb, ha, Except.ok.injEq]
  obtain ⟨x, hx, rfl⟩ := jcsBytes_ok ha
  have hi := integral_sorted hx
  have hd := depth_sorted hx
  refine ⟨hiff, ?_, ?_⟩
  · intro hle
    have hu := uniqueKeys_sorted hx hv
    refine ⟨x, fromSlice_print round (hd ▸ hle) hi hu, hu, ?_⟩
    rw [jcsBytes, sorted_sorted hx]
    rfl
  · intro hlt
    exact fromSlice_print_none round (hd ▸ hlt) hi

theorem jcsBytes_identify_reordered :
    let v : Value := .obj [("b", .arr [.null]), ("a", .num (.negInt 0))]
    let w : Value := .obj [("a", .num (.negInt 0)), ("b", .arr [.null])]
    ∃ a, jcsBytes v = .ok a ∧ jcsBytes w = .ok a ∧ same v w ∧
      ∃ x, fromSlice (fun _ => none) a = some x ∧ uniqueKeys x ∧ jcsBytes x = .ok a := by
  intro v w
  have hsame : same v w := by decide
  obtain ⟨a, ha⟩ := jcsBytes_of_canonical (v := v) (by decide)
  obtain ⟨b, hb⟩ := jcsBytes_of_canonical (v := w) (by decide)
  obtain ⟨hiff, hread, -⟩ := jcsBytes_identify (fun _ => none) (by decide) (by decide) ha hb
  exact ⟨a, ha, hiff.mpr hsame ▸ hb, hsame, hread (by decide)⟩

/-- `n` arrays, one in the other. -/
def nest : Nat → Value
  | 0 => .arr []
  | n + 1 => .arr [nest n]

theorem depth_nest : depth (nest n) = n + 1 := by
  induction n with
  | zero => rfl
  | succ n ih => simp [nest, depth, depthItems, ih]

theorem sorted_nest : sorted (nest n) = .ok (nest n) := by
  induction n with
  | zero => rfl
  | succ n ih => exact sorted_arr_iff.mpr ⟨[nest n], rfl, .cons ih .nil⟩

theorem uniqueKeys_nest : uniqueKeys (nest n) := by
  induction n with
  | zero => rfl
  | succ n ih => simp [nest, uniqueKeys, uniqueKeysItems, ih]

/-- The canonical bytes of 128 arrays one in the other do not parse. -/
theorem jcsBytes_unreadable : ∃ v b, uniqueKeys v ∧ jcsBytes v = .ok b ∧
    ∀ round, fromSlice round b = none := by
  have hs := sorted_nest 127
  refine ⟨nest 127, print (nest 127), uniqueKeys_nest 127, by rw [jcsBytes, hs]; rfl, ?_⟩
  intro round
  apply fromSlice_print_none round _ (integral_sorted hs)
  rw [depth_nest]
  decide

/-! Agreement with RFC 8785. -/

theorem toNat_lt_of_isAscii {s : String} (h : isAscii s) : ∀ c ∈ s.toList, c.toNat < 0x10000 := by
  intro c hc
  have hbytes : ∀ d ∈ utf8 s, d.toNat < 128 := by
    intro d hd
    simpa [UInt8.lt_iff_toNat_lt] using all_eq_true.mp h d hd
  have := toNat_le_of_ascii hbytes c hc
  omega

theorem orderedItems_eq {vs ws : List Value} (h : Forall₂ (fun v w => ordered v = w) vs ws) :
    orderedItems vs = ws := by
  induction h with
  | nil => rfl
  | cons hv _ ih => rw [orderedItems, hv, ih]

theorem orderedMembers_eq (ms : Members) :
    orderedMembers ms = ms.map (fun m => (m.1, ordered m.2)) := by
  induction ms with
  | nil => rfl
  | cons m ms ih => simp [orderedMembers, ih]

/-- The canonical form has the members in the order of RFC 8785. -/
theorem ordered_of_sorted (h : sorted v = .ok w) : ordered v = w := by
  refine sorted_induction (P := fun v w => ordered v = w) ?_ ?_ ?_ h
  · intro v hd _
    cases v <;> first | rfl | cases hd
  · intro vs ws hf
    rw [ordered, orderedItems_eq (hf.imp (fun _ _ hm => hm.2))]
  · intro ms out hf
    have hascii : ∀ m ∈ ms, ∀ c ∈ m.1.toList, c.toNat < 0x10000 := by
      intro m hm
      obtain ⟨n, -, ⟨-, ha, -⟩, -⟩ := exists_right_of_mem hf (mem_byName.mpr hm)
      exact toNat_lt_of_isAscii ha
    have hmap := map_insertionSort (fun a b => a.1 ≤ b.1) (fun a b => utf16 a.1 ≤ utf16 b.1)
      (fun m : String × Value => (m.1, ordered m.2)) ms
      (fun a ha b hb => (utf16_le_iff (hascii a ha) (hascii b hb)).symm)
    rw [ordered, orderedMembers_eq, ← hmap]
    congr 1
    change (byName ms).map _ = out
    generalize byName ms = l at hf
    induction hf with
    | nil => rfl
    | cons hm _ ih => rw [map_cons, ih, hm.2, ← hm.1.1]

theorem mem_numbers_sorted {n : Number} (h : sorted v = .ok w) : n ∈ numbers w ↔ n ∈ numbers v := by
  refine sorted_induction (P := fun v w => n ∈ numbers w ↔ n ∈ numbers v)
    (fun _ _ _ => Iff.rfl) ?_ ?_ h
  · intro vs ws hf
    rw [numbers, numbers, mem_numbersItems, mem_numbersItems]
    constructor
    · rintro ⟨w, hw, hn⟩
      obtain ⟨v, hv, -, hiff⟩ := exists_left_of_mem hf hw
      exact ⟨v, hv, hiff.mp hn⟩
    · rintro ⟨v, hv, hn⟩
      obtain ⟨w, hw, -, hiff⟩ := exists_right_of_mem hf hv
      exact ⟨w, hw, hiff.mpr hn⟩
  · intro ms out hf
    rw [numbers, numbers, mem_numbersMembers, mem_numbersMembers]
    constructor
    · rintro ⟨w, hw, hn⟩
      obtain ⟨v, hv, -, hiff⟩ := exists_left_of_mem hf hw
      exact ⟨v, mem_byName.mp hv, hiff.mp hn⟩
    · rintro ⟨v, hv, hn⟩
      obtain ⟨w, hw, -, hiff⟩ := exists_right_of_mem hf (mem_byName.mpr hv)
      exact ⟨w, hw, hiff.mpr hn⟩

/-- Accepted documents have the bytes of RFC 8785 exactly when the digits of each of their
integers are those its double is printed with, as they are below `2 ^ 53`. -/
theorem jcsBytes_eq_rfc8785_iff (float : FloatText → Bytes) (h : jcsBytes v = .ok b) :
    b = Jcs.bytes float v ↔ ∀ n ∈ Jcs.numbers v, Jcs.Faithful n := by
  obtain ⟨w, hw, rfl⟩ := jcsBytes_ok h
  rw [bytes, ordered_of_sorted hw, eq_comm, text_eq_print_iff (integral_sorted hw)]
  exact forall_congr' (fun n => by rw [mem_numbers_sorted hw])

theorem jcsBytes_eq_rfc8785_expiry :
    let v : Value := .obj [("expires_at", .num (.posInt 1790000000)), ("api_version", .str "aci/1")]
    ∃ b, jcsBytes v = .ok b ∧ b = Jcs.bytes FloatText.text v := by
  intro v
  obtain ⟨b, hb⟩ := jcsBytes_of_canonical (v := v) (by decide)
  refine ⟨b, hb, (jcsBytes_eq_rfc8785_iff FloatText.text hb).mpr ?_⟩
  intro n hn
  obtain rfl : n = .posInt 1790000000 := by simpa [v, numbers, numbersMembers] using hn
  exact printed_of_lt (by decide)

/-- The integer `2 ^ 53 + 1` is accepted, but its double is `2 ^ 53`. -/
theorem jcsBytes_ne_rfc8785 :
    let v : Value := .obj [("expires_at", .num (.posInt 9007199254740993))]
    jcsBytes v = .ok (utf8 "\x7b\"expires_at\":9007199254740993\x7d") ∧
      Jcs.bytes FloatText.text v = utf8 "\x7b\"expires_at\":9007199254740992\x7d" := by
  refine ⟨?_, by decide +kernel⟩
  rfl

end AciGateway.Digest
