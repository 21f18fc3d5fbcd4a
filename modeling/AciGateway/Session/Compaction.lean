import AciGateway.Session.Durability

/-! Compaction. The rewritten log restores every retained session, and makes the newest one
that a fingerprint was last filed under its current session. -/
namespace AciGateway.Session

open Octets Json Digest Lines SessionIndex JsonlStore List

variable {sha256 : Bytes → Bytes} {reader : Reader} {s s' : JsonlStore sha256}
  {sealed : List (AttestedSession sha256)} {st st' : Replay sha256} {ix : SessionIndex}
  {now ts t : U64} {x : String × SessionEntry} {L : List (String × SessionEntry)} {id : String}
  {evs : List SessionLogRecord} {e : SessionEntry}

/-- An entry that replay turns back into its session. -/
def Restorable (sealed : List (AttestedSession sha256)) (bundles : FinMap String Bytes)
    (x : String × SessionEntry) : Prop :=
  ∃ session ∈ sealed, ∃ split, SplitSession.new sha256 session = some split ∧
    split.sessionId = x.1 ∧ split.stripped = x.2.stripped ∧
    split.contentType = x.2.contentType ∧ bundles.lookup split.digest = some split.bundle ∧
    replayable split.contentType ∧ depth session.document.toValue ≤ 127

/-- The record of an entry, with some number that has a successor. -/
def RecordOf (ts : U64) (r : SessionLogRecord) (x : String × SessionEntry) : Prop :=
  ∃ seq seq', U64.succ? seq = some seq' ∧ r = sessionRecord seq ts x.2.fingerprint
    x.2.retentionUntil x.2.contentType x.2.stripped

/-- Equal but for the token. -/
structure Same (e e' : SessionEntry) : Prop where
  stripped : e'.stripped = e.stripped
  contentType : e'.contentType = e.contentType
  fingerprint : e'.fingerprint = e.fingerprint
  retentionUntil : e'.retentionUntil = e.retentionUntil

/-- The record of one entry files the entry again, unless its deadline has passed. -/
theorem replay_entry (reader : Reader) (now : U64) {r : SessionLogRecord} (hr : RecordOf ts r x)
    (hx : Restorable sealed st.bundles x) (hexp : x.2.stripped.expiresAt ≤ x.2.retentionUntil)
    (hnew : st.index.byId.lookup x.1 = none) :
    let st' := replayRecord sha256 reader now st r
    st'.bundles = st.bundles ∧ (∀ s ∈ st'.sealed, s ∈ st.sealed ∨ s ∈ sealed) ∧
      if now < x.2.retentionUntil then
        ∃ e', Same x.2 e' ∧ (∀ id, st'.index.byId.lookup id =
            if id = x.1 then some e' else st.index.byId.lookup id) ∧
          ∀ f, st'.index.byFingerprint.lookup f =
            if f = x.2.fingerprint then some x.1 else st.index.byFingerprint.lookup f
      else st'.index = st.index := by
  obtain ⟨seq, seq', hseq, rfl⟩ := hr
  obtain ⟨session, hm, split, hn, hid, hstrip, hct, hb, hok⟩ := hx
  intro st'
  by_cases hnow : now < x.2.retentionUntil
  · have hst : st' = { st with
        nextSeq := max st.nextSeq seq'
        index := st.index.insert x.2.fingerprint split x.2.retentionUntil
        sealed := session :: st.sealed } := by
      have h := replayRecord_session reader ts x.2.fingerprint hseq hnow hn hb
      rw [if_pos hok, hstrip, hct] at h
      exact h
    rw [if_pos hnow, hst]
    refine ⟨rfl, ?_, st.index.entryFor x.2.fingerprint split x.2.retentionUntil, ?_, ?_, ?_⟩
    · intro s hs
      rcases mem_cons.mp hs with rfl | hs
      · exact .inr hm
      · exact .inl hs
    · refine ⟨hstrip, hct, rfl, ?_⟩
      rw [(entryFor_new (hid.symm ▸ hnew)).1, hstrip, max_eq_left hexp]
    · intro id
      rw [lookup_insert, hid]
    · intro f
      rw [← hid]
      exact FinMap.lookup_insert_eq _ _ _ _
  · rw [if_neg hnow]
    have htype : recordTypeSession ≠ recordTypeEvidence := by decide
    have hst : st' = { st with nextSeq := max st.nextSeq seq' } := by
      simp [st', replayRecord, sessionRecord, hseq, htype, not_lt.mp hnow]
    rw [hst]
    exact ⟨rfl, fun s hs => .inl hs, rfl⟩

/-- What the records of the entries `L` make of what was read before. -/
structure Restored (now : U64) (sealed : List (AttestedSession sha256))
    (L : List (String × SessionEntry)) (st st' : Replay sha256) : Prop where
  sealed : ∀ s ∈ st'.sealed, s ∈ st.sealed ∨ s ∈ sealed
  kept : ∀ id e, st.index.byId.lookup id = some e → st'.index.byId.lookup id = some e
  live : ∀ x ∈ L, now < x.2.retentionUntil → ∃ e', st'.index.byId.lookup x.1 = some e' ∧
    Same x.2 e'
  only : ∀ id e', st'.index.byId.lookup id = some e' → st.index.byId.lookup id = some e' ∨
    ∃ x ∈ L, x.1 = id ∧ now < x.2.retentionUntil ∧ Same x.2 e'
  fingerprint : ∀ f, st'.index.byFingerprint.lookup f =
    match (L.filter (fun x => now < x.2.retentionUntil ∧ x.2.fingerprint = f)).getLast? with
    | some x => some x.1
    | none => st.index.byFingerprint.lookup f

theorem restored_nil : Restored now sealed [] st st where
  sealed s hs := .inl hs
  kept _ _ h := h
  live x hx := by cases hx
  only _ _ h := .inl h
  fingerprint f := rfl

/-- One more entry in front. -/
theorem Restored.cons {st₁ : Replay sha256} (hs : ∀ s ∈ st₁.sealed, s ∈ st.sealed ∨ s ∈ sealed)
    (hnew : st.index.byId.lookup x.1 = none) (hx : if now < x.2.retentionUntil then
        ∃ e', Same x.2 e' ∧ (∀ id, st₁.index.byId.lookup id =
            if id = x.1 then some e' else st.index.byId.lookup id) ∧
          ∀ f, st₁.index.byFingerprint.lookup f =
            if f = x.2.fingerprint then some x.1 else st.index.byFingerprint.lookup f
      else st₁.index = st.index)
    (h : Restored now sealed L st₁ st') : Restored now sealed (x :: L) st st' := by
  have hsealed : ∀ s ∈ st'.sealed, s ∈ st.sealed ∨ s ∈ sealed := by
    intro s hm
    rcases h.sealed s hm with hm | hm
    · exact hs s hm
    · exact .inr hm
  by_cases hnow : now < x.2.retentionUntil
  · rw [if_pos hnow] at hx
    obtain ⟨e', hsame, hlook, hfp⟩ := hx
    refine ⟨hsealed, ?_, ?_, ?_, ?_⟩
    · intro id e hl
      have hne : id ≠ x.1 := by
        rintro rfl
        cases hnew.symm.trans hl
      exact h.kept id e (by rw [hlook, if_neg hne]; exact hl)
    · intro y hy hny
      rcases mem_cons.mp hy with rfl | hy
      · exact ⟨e', h.kept _ _ (by rw [hlook, if_pos rfl]), hsame⟩
      · exact h.live y hy hny
    · intro id e hl
      rcases h.only id e hl with hl | ⟨y, hy, hrest⟩
      · rw [hlook] at hl
        split at hl
        · next hid =>
          cases hl
          exact .inr ⟨x, mem_cons_self .., hid.symm, hnow, hsame⟩
        · exact .inl hl
      · exact .inr ⟨y, mem_cons_of_mem _ hy, hrest⟩
    · intro f
      rw [h.fingerprint f, hfp, filter_cons]
      by_cases hf : x.2.fingerprint = f
      · simp only [hnow, hf, and_self, decide_true, if_true, getLast?_cons]
        cases (L.filter (fun x => now < x.2.retentionUntil ∧ x.2.fingerprint = f)).getLast? <;> simp
      · simp [hf, Ne.symm hf]
  · rw [if_neg hnow] at hx
    refine ⟨hsealed, ?_, ?_, ?_, ?_⟩
    · intro id e hl
      exact h.kept id e (by rw [hx]; exact hl)
    · intro y hy hny
      rcases mem_cons.mp hy with rfl | hy
      · exact (hnow hny).elim
      · exact h.live y hy hny
    · intro id e hl
      rcases h.only id e hl with hl | ⟨y, hy, hrest⟩
      · exact .inl (by rw [← hx]; exact hl)
      · exact .inr ⟨y, mem_cons_of_mem _ hy, hrest⟩
    · intro f
      rw [h.fingerprint f, hx, filter_cons]
      simp [hnow]

/-- The records of distinct entries restore them in their order. -/
theorem restored_records {rs : List SessionLogRecord}
    (hr : Forall₂ (RecordOf ts) rs L) (hx : ∀ x ∈ L, Restorable sealed st.bundles x)
    (hexp : ∀ x ∈ L, x.2.stripped.expiresAt ≤ x.2.retentionUntil)
    (hnodup : (L.map Prod.fst).Nodup) (hnew : ∀ x ∈ L, st.index.byId.lookup x.1 = none) :
    Restored now sealed L st (rs.foldl (replayRecord sha256 reader now) st) := by
  induction hr generalizing st with
  | nil => exact restored_nil
  | @cons r x rs L hr _ ih =>
    obtain ⟨hb, hs, hst⟩ := replay_entry reader now hr
      (hx x (mem_cons_self ..)) (hexp x (mem_cons_self ..))
      (hnew x (mem_cons_self ..))
    rw [map_cons, nodup_cons] at hnodup
    refine Restored.cons hs (hnew x (mem_cons_self ..)) hst (ih ?_ ?_ hnodup.2 ?_)
    · intro y hy
      rw [hb]
      exact hx y (mem_cons_of_mem _ hy)
    · exact fun y hy => hexp y (mem_cons_of_mem _ hy)
    · intro y hy
      have hold := hnew y (mem_cons_of_mem _ hy)
      have hne : y.1 ≠ x.1 := fun he => hnodup.1 (mem_map.mpr ⟨y, hy, he⟩)
      split at hst
      · obtain ⟨e', -, hlook, -⟩ := hst
        rw [hlook, if_neg hne]
        exact hold
      · rw [hst]
        exact hold

/-! The compacted log. -/

theorem records_flatten (reader : Reader) (rs : List SessionLogRecord) :
    records reader (rs.map recordLine).flatten = rs := by
  induction rs with
  | nil => rfl
  | cons r rs ih => rw [map_cons, flatten_cons, records_recordLine, ih]

theorem succ?_ofNat {n : Nat} (h : n + 1 < 2 ^ 64) :
    ∃ seq', U64.succ? (Fin.ofNat (2 ^ 64) n) = some seq' := by
  have hn : (Fin.ofNat (2 ^ 64) n).val + 1 < 2 ^ 64 := by
    have : (Fin.ofNat (2 ^ 64) n).val = n := Nat.mod_eq_of_lt (by omega)
    omega
  exact ⟨_, dif_pos hn⟩

/-- Numbering makes of each item its record. -/
theorem numbered {α : Type} (g : α → U64 → SessionLogRecord) (l : List α) (k : Nat)
    (h : k + l.length < 2 ^ 64) :
    Forall₂ (fun r a => ∃ seq seq', U64.succ? seq = some seq' ∧ r = g a seq)
      ((l.map g).mapIdx (fun n record => record (Fin.ofNat (2 ^ 64) (n + k)))) l := by
  induction l generalizing k with
  | nil => exact .nil
  | cons a l ih =>
    rw [length_cons] at h
    rw [map_cons, mapIdx_cons]
    obtain ⟨seq', hs⟩ := succ?_ofNat (n := 0 + k) (by omega)
    have hrest := ih (k + 1) (by omega)
    refine .cons ⟨_, seq', hs, rfl⟩ ?_
    simpa only [Nat.add_assoc, Nat.add_comm 1 k] using hrest

theorem mem_oldestFirst : x ∈ ix.oldestFirst ↔ ix.byId.lookup x.1 = some x.2 := by
  rw [oldestFirst, mem_insertionSort, mem_map]
  constructor
  · rintro ⟨⟨id, e⟩, hm, rfl⟩
    exact FinMap.mem_entries.mp hm
  · intro h
    exact ⟨⟨x.1, x.2⟩, FinMap.mem_entries.mpr h, rfl⟩

theorem sorted_oldestFirst (ix : SessionIndex) :
    ix.oldestFirst.Pairwise (fun a b => ageKey a ≤ ageKey b) := by
  exact pairwise_insertionSort _ _

theorem nodup_oldestFirst (ix : SessionIndex) : (ix.oldestFirst.map Prod.fst).Nodup := by
  have hperm := (perm_insertionSort (fun a b => ageKey a ≤ ageKey b)
    (ix.byId.entries.map (fun e => (e.1, e.2)))).map Prod.fst
  rw [oldestFirst, hperm.nodup_iff, map_map]
  exact ix.byId.nodupKeys

/-- The records of a compacted log, in two parts. -/
theorem records_compact (reader : Reader) (ix : SessionIndex) (now : U64)
    (hsize : ix.bundles.entries.length + ix.byId.entries.length < 2 ^ 64) :
    ∃ evs rs, records reader (ix.compactLines now).flatten = evs ++ rs ∧
      Forall₂ (fun r (b : Sigma fun _ : String => Bundle) => ∃ seq seq',
        U64.succ? seq = some seq' ∧ r = evidenceRecord seq now b.2.bytes)
          evs ix.bundles.entries ∧
      Forall₂ (RecordOf now) rs ix.oldestFirst := by
  have hlen : ix.oldestFirst.length = ix.byId.entries.length := by
    rw [oldestFirst, length_insertionSort, length_map]
  rw [compactLines, records_flatten, snapshot, mapIdx_append]
  refine ⟨_, _, rfl, ?_, ?_⟩
  · exact numbered (fun (b : Sigma fun _ : String => Bundle) seq =>
      evidenceRecord seq now b.2.bytes) ix.bundles.entries 0 (by omega)
  · rw [length_map]
    exact numbered _ ix.oldestFirst ix.bundles.entries.length (by omega)

/-- Evidence records only add bundles. -/
theorem replay_evidence (reader : Reader) (t : U64) (st : Replay sha256) {bs : List (Sigma fun _ : String => Bundle)}
    (h : Forall₂ (fun r (b : Sigma fun _ : String => Bundle) => ∃ seq seq',
      U64.succ? seq = some seq' ∧ r = evidenceRecord seq now b.2.bytes) evs bs) :
    (evs.foldl (replayRecord sha256 reader t) st).index = st.index ∧
      (evs.foldl (replayRecord sha256 reader t) st).sealed = st.sealed := by
  induction h generalizing st with
  | nil => exact ⟨rfl, rfl⟩
  | cons hr _ ih =>
    obtain ⟨seq, seq', hs, rfl⟩ := hr
    rw [foldl_cons, replayRecord_evidence hs]
    exact ih _

/-- The bundles of the index are read back under their digests. -/
theorem bundle_compact (hi : Inv sealed ix)
    (h : Forall₂ (fun r (b : Sigma fun _ : String => Bundle) => ∃ seq seq',
      U64.succ? seq = some seq' ∧ r = evidenceRecord seq now b.2.bytes) evs ix.bundles.entries)
    {digest : String} {b : Bundle} (hb : ix.bundles.lookup digest = some b) :
    (evs.foldl (replayRecord sha256 reader t) (.start sha256)).bundles.lookup digest =
      some b.bytes := by
  have hhex : ∀ {digest b}, ix.bundles.lookup digest = some b →
      sha256Hex sha256 b.bytes = digest := by
    intro digest b hb
    obtain ⟨split, ⟨s, -, hn⟩, rfl, hbytes⟩ := hi.bundle hb
    rw [← hbytes, (split_spec hn).2.2.2]
  have hread := (readFrom_start sha256).records reader t evs
  have hlogged : Logged sha256 digest evs := by
    obtain ⟨r, hr, seq, seq', hs, rfl⟩ := Lists.exists_left_of_mem h (FinMap.mem_entries.mpr hb)
    exact ⟨_, hr, b.bytes, evidenceOf_evidence hs, hhex hb⟩
  obtain ⟨bytes, hlook⟩ := hread.logged digest hlogged
  obtain ⟨r, hr, hev, hdig⟩ := hread.bundle digest bytes hlook
  obtain ⟨⟨digest', b'⟩, hm, seq, seq', hs, rfl⟩ := Lists.exists_right_of_mem h hr
  rw [evidenceOf_evidence hs] at hev
  have hb' := FinMap.mem_entries.mp hm
  obtain rfl : digest' = digest := by
    rw [← hhex hb', ← hdig, Option.some.inj hev]
  obtain rfl : b = b' := Option.some.inj (hb.symm.trans hb')
  rw [hlook, ← Option.some.inj hev]

/-- What opening the compacted log reads. -/
theorem restored_compact (hd : Distinct sealed) (hi : Inv sealed ix)
    (hok : ∀ id e, ix.byId.lookup id = some e →
      replayable e.contentType ∧ depth e.stripped.toValue ≤ 127)
    (hsize : ix.bundles.entries.length + ix.byId.entries.length < 2 ^ 64) :
    ∃ st₀ : Replay sha256, st₀.index = empty ∧ st₀.sealed = [] ∧
      Restored t sealed ix.oldestFirst st₀
        (replay sha256 reader (ix.compactLines now).flatten t) := by
  obtain ⟨evs, rs, hrec, hevs, hrs⟩ := records_compact reader ix now hsize
  obtain ⟨hindex, hsealed⟩ := replay_evidence reader t (.start sha256) hevs
  refine ⟨_, hindex, hsealed, ?_⟩
  rw [replay, hrec, foldl_append]
  refine restored_records hrs ?_ ?_ (nodup_oldestFirst ix) ?_
  · intro x hx
    have hl := mem_oldestFirst.mp hx
    obtain ⟨session, hm, split, b, hn, hid, hstrip, hct, hb, hbytes⟩ := exists_session hd hi hl
    obtain ⟨hrep, hdepth⟩ := hok x.1 x.2 hl
    refine ⟨session, hm, split, hn, hid, hstrip, hct, ?_, hct ▸ hrep, ?_⟩
    · rw [bundle_compact hi hevs hb, hbytes]
    · rw [← hstrip, (split_spec hn).2.1, depth_strip] at hdepth
      exact hdepth
  · intro x hx
    exact hi.expires (mem_oldestFirst.mp hx)
  · intro x hx
    rw [hindex]
    rfl

theorem compact_swap (h : s.run [.compact now, .swap true] = some s') :
    s'.world = { s.world.evict now with index := (s.world.evict now).index.markAllPersisted } ∧
      s'.file = ((s.world.evict now).index.compactLines now).flatten := by
  obtain ⟨s₁, hc, h⟩ := run_cons.mp h
  simp only [step] at hc
  split at hc
  · cases hc
    cases h
    exact ⟨rfl, rfl⟩
  · cases hc

/-- The fingerprints of a restored index: each leads to the newest live entry filed under it. -/
theorem restored_fingerprint (h : Restored now sealed ix.oldestFirst st st')
    (hst : st.index = empty) (f id : String) :
    st'.index.byFingerprint.lookup f = some id ↔
      ∃ e, (ix.byId.lookup id = some e ∧ now < e.retentionUntil) ∧ e.fingerprint = f ∧
        ∀ id' e', ix.byId.lookup id' = some e' ∧ now < e'.retentionUntil → e'.fingerprint = f →
          ageKey (id', e') ≤ ageKey (id, e) := by
  have hmem : ∀ x, x ∈ ix.oldestFirst.filter (fun x => now < x.2.retentionUntil ∧
      x.2.fingerprint = f) ↔ (ix.byId.lookup x.1 = some x.2 ∧ now < x.2.retentionUntil) ∧
        x.2.fingerprint = f := by
    intro x
    rw [mem_filter, mem_oldestFirst, decide_eq_true_iff, and_assoc]
  have hsorted : (ix.oldestFirst.filter (fun x => now < x.2.retentionUntil ∧
      x.2.fingerprint = f)).Pairwise (fun a b => ageKey a ≤ ageKey b) :=
    (sorted_oldestFirst ix).filter _
  have hinj : ∀ a ∈ ix.oldestFirst.filter (fun x => now < x.2.retentionUntil ∧
      x.2.fingerprint = f), ∀ b ∈ ix.oldestFirst.filter (fun x => now < x.2.retentionUntil ∧
      x.2.fingerprint = f), ageKey a = ageKey b → a = b := by
    intro a ha b hb hk
    have hid : a.1 = b.1 := congrArg (fun k => (ofLex k).2) hk
    have hla := ((hmem a).mp ha).1.1
    have hlb := ((hmem b).mp hb).1.1
    rw [hid] at hla
    exact Prod.ext hid (Option.some.inj (hla.symm.trans hlb))
  have hlast := fun x => Lists.getLast?_eq_some_iff (x := x) hsorted hinj
  rw [h.fingerprint f]
  constructor
  · intro hf
    split at hf
    · next x hx =>
      cases hf
      obtain ⟨hxm, hmax⟩ := (hlast x).mp hx
      obtain ⟨hkept, hfx⟩ := (hmem x).mp hxm
      refine ⟨x.2, hkept, hfx, ?_⟩
      intro id' e' hk' hf'
      exact hmax (id', e') ((hmem _).mpr ⟨hk', hf'⟩)
    · rw [hst] at hf
      cases hf
  · rintro ⟨e, hkept, hf, hmax⟩
    have hx := (hlast (id, e)).mpr ⟨(hmem _).mpr ⟨hkept, hf⟩, fun y hy =>
      hmax y.1 y.2 ((hmem y).mp hy).1 ((hmem y).mp hy).2⟩
    rw [hx]

/-- A retained entry of the index. -/
def Retained (ix : SessionIndex) (now : U64) (id : String) (e : SessionEntry) : Prop :=
  ix.byId.lookup id = some e ∧ now < e.retentionUntil

/-- Every entry is one that replay takes, and the records can be numbered. -/
structure Compactable (ix : SessionIndex) : Prop where
  replays : ∀ id e, ix.byId.lookup id = some e →
    replayable e.contentType ∧ depth e.stripped.toValue ≤ 127
  size : ix.bundles.entries.length + ix.byId.entries.length < 2 ^ 64

/-- Marking the bundles as persisted changes nothing that compaction writes. -/
theorem compactable_markAllPersisted : Compactable ix.markAllPersisted ↔ Compactable ix := by
  have hsize : ix.markAllPersisted.bundles.entries.length = ix.bundles.entries.length := by
    simp only [markAllPersisted, FinMap.mapValues, length_map]
  constructor
  · intro h
    exact ⟨h.replays, hsize ▸ h.size⟩
  · intro h
    exact ⟨h.replays, hsize.symm ▸ h.size⟩

section Reopen

variable (hd : Distinct sealed) (hi : Inv sealed ix) (hc : Compactable ix)
include hd hi hc

theorem restored_reopen (reader : Reader) (now : U64) :
    ∃ st₀ : Replay sha256, st₀.index = empty ∧ st₀.sealed = [] ∧
      Restored now sealed ix.oldestFirst st₀
        (replay sha256 reader (ix.compactLines now).flatten now) :=
  restored_compact hd hi hc.replays hc.size

theorem sealed_reopen (reader : Reader) (now : U64) :
    (replay sha256 reader (ix.compactLines now).flatten now).sealed ⊆ sealed := by
  obtain ⟨st₀, -, hsealed, hres⟩ := restored_reopen hd hi hc reader now
  intro session hm
  rcases hres.sealed session hm with h | h
  · rw [hsealed] at h
    cases h
  · exact h

/-- Only retained sessions come back. -/
theorem retained_of_reopen {e' : SessionEntry}
    (hl : (openLog sha256 reader (ix.compactLines now).flatten now).1.byId.lookup id = some e') :
    ∃ e, Retained ix now id e ∧ e'.retentionUntil = e.retentionUntil := by
  obtain ⟨st₀, hindex, -, hres⟩ := restored_reopen hd hi hc reader now
  rcases hres.only id e' hl with hl | ⟨x, hx, rfl, hnow, hsame⟩
  · rw [hindex] at hl
    cases hl
  · exact ⟨x.2, ⟨mem_oldestFirst.mp hx, hnow⟩, hsame.retentionUntil⟩

/-- Every retained session comes back, with its deadline. -/
theorem reopen_of_retained (reader : Reader) (h : Retained ix now id e) :
    ∃ e', (openLog sha256 reader (ix.compactLines now).flatten now).1.byId.lookup id =
      some e' ∧ e'.retentionUntil = e.retentionUntil := by
  obtain ⟨st₀, -, -, hres⟩ := restored_reopen hd hi hc reader now
  obtain ⟨e', hl, hsame⟩ := hres.live (id, e) (mem_oldestFirst.mpr h.1) h.2
  exact ⟨e', hl, hsame.retentionUntil⟩

theorem served_reopen (reader : Reader) (h : Retained ix now id e) :
    ∃ session ∈ sealed, session.sessionId = id ∧
      served sha256 reader (ix.compactLines now).flatten now id = some session := by
  have hd' := hd.mono (sealed_reopen hd hi hc reader now)
  obtain ⟨e', hl, hret⟩ := reopen_of_retained hd hi hc reader h
  obtain ⟨session, hm, hid, hget⟩ := get_of_lookup hd' (inv_openLog hd') hl (hret ▸ h.2)
    (fun _ => false)
  exact ⟨session, sealed_reopen hd hi hc reader now hm, hid, hget⟩

theorem served_reopen_none (h : ¬ ∃ e, Retained ix now id e) :
    served sha256 reader (ix.compactLines now).flatten now id = none := by
  have hd' := hd.mono (sealed_reopen hd hi hc reader now)
  refine get_of_lookup_none (inv_openLog hd') ?_ (fun _ => false)
  cases hl : (openLog sha256 reader (ix.compactLines now).flatten now).1.byId.lookup id with
  | none => rfl
  | some e' =>
    obtain ⟨e, he, -⟩ := retained_of_reopen hd hi hc hl
    exact (h ⟨e, he⟩).elim

theorem fingerprint_reopen (f id : String) :
    (openLog sha256 reader (ix.compactLines now).flatten now).1.byFingerprint.lookup f = some id ↔
      ∃ e, Retained ix now id e ∧ e.fingerprint = f ∧
        ∀ id' e', Retained ix now id' e' → e'.fingerprint = f →
          ageKey (id', e') ≤ ageKey (id, e) := by
  obtain ⟨st₀, hindex, -, hres⟩ := restored_reopen hd hi hc reader now
  exact restored_fingerprint hres hindex f id

end Reopen

/-- Compaction and reopen: the reopened store serves exactly the retained sessions, byte for byte
and with their deadlines, and leads each fingerprint to the newest retained session that was
last filed under it. -/
theorem compact_reopen {file : Bytes} {t : U64} {actions : List (Action sha256)}
    (hrun : (JsonlStore.opened sha256 reader file t).run actions = some s)
    (hcompact : s.run [.compact now, .swap true] = some s') (hd : Distinct s.world.sealed)
    (hc : Compactable s'.world.index) :
    (∀ id e', (openLog sha256 reader s'.file now).1.byId.lookup id = some e' →
      ∃ e, Retained s'.world.index now id e ∧ e'.retentionUntil = e.retentionUntil) ∧
    (∀ id e, Retained s'.world.index now id e →
      (∃ e', (openLog sha256 reader s'.file now).1.byId.lookup id = some e' ∧
        e'.retentionUntil = e.retentionUntil) ∧
      ∃ before after, (s'.world.get id now).1 = some before ∧
        served sha256 reader s'.file now id = some after ∧ after.bytes = before.bytes) ∧
    (∀ id, (¬ ∃ e, Retained s'.world.index now id e) →
      served sha256 reader s'.file now id = none) ∧
    (∀ f id, (openLog sha256 reader s'.file now).1.byFingerprint.lookup f = some id ↔
      ∃ e, Retained s'.world.index now id e ∧ e.fingerprint = f ∧
        ∀ id' e', Retained s'.world.index now id' e' → e'.fingerprint = f →
          ageKey (id', e') ≤ ageKey (id, e)) := by
  obtain ⟨hworld, hfile⟩ := compact_swap hcompact
  have hi := ((good_jsonl hrun hd).evict now).inv
  have hc' : Compactable (s.world.evict now).index := by
    rw [hworld] at hc
    exact compactable_markAllPersisted.mp hc
  -- Marking the bundles as persisted leaves the entries as they are.
  have hret : ∀ id e, Retained s'.world.index now id e ↔
      Retained (s.world.evict now).index now id e := by
    intro id e
    rw [hworld]
    rfl
  simp only [hret, hfile]
  refine ⟨fun id e' => retained_of_reopen hd hi hc', ?_, fun id => served_reopen_none hd hi hc',
    fingerprint_reopen hd hi hc'⟩
  intro id e h
  refine ⟨reopen_of_retained hd hi hc' reader h, ?_⟩
  obtain ⟨after, ha, haid, haget⟩ := served_reopen hd hi hc' reader h
  obtain ⟨before, hb, hbid, hbget⟩ := get_of_lookup hd (inv_markAllPersisted hi)
    h.1 h.2 (s.world.evict now).held
  rw [hworld]
  exact ⟨before, after, hbget, haget, hd.bytes_eq ha hb (haid.trans hbid.symm)⟩

section Alias

variable {session : AttestedSession sha256} {split : SplitSession} {deadline : U64}

theorem distinct_same (session : AttestedSession sha256) (h : ∀ x ∈ sealed, x = session) : Distinct sealed :=
  (distinct_singleton session).mono (fun x hx => by rw [h x hx]; exact mem_singleton_self _)

/-- Storing while everything is retained, this session included, is an insertion. -/
theorem store_index_of_live {w : World sha256} (hg : Good w)
    (hn : SplitSession.new sha256 session = some split) (hd : Distinct (session :: w.sealed))
    {fingerprint : String} (hlive : now < deadline)
    (h : ∀ id e, w.index.byId.lookup id = some e → now < e.retentionUntil) :
    (w.store true fingerprint session split deadline now).2.index =
      (w.index.insert fingerprint split deadline).markPersisted split.digest := by
  have hi := (hg.file true fingerprint deadline hn hd).inv
  rw [store_eq]
  refine evictLapsed_of_live hi ?_
  intro id e hl
  have hl' : (w.file true fingerprint session split deadline).index.byId.lookup id = some e := hl
  rw [lookup_file] at hl'
  split at hl'
  · cases hl'
    exact hlive.trans_le ((le_max_left _ _).trans le_entryFor)
  · exact h id e hl'

/-- The index after one session was filed twice, under two fingerprints. -/
def aliased (split : SplitSession) (deadline : U64) : SessionIndex :=
  (((SessionIndex.empty.insert "one" split deadline).markPersisted split.digest).insert "two"
    split deadline).markPersisted split.digest

/-- One session, given to two calls with different fingerprints. -/
def aliasRun (session : AttestedSession sha256) : List (Action sha256) :=
  [.lookupLocked "one" 7 5, .sealed (.ok session), .write none,
    .lookupLocked "two" 7 5, .sealed (.ok session), .write none]

theorem lookup_aliased (h : (aliased split deadline).byId.lookup id = some e) :
    id = split.sessionId ∧ deadline ≤ e.retentionUntil ∧ e.fingerprint = "two" ∧
      e.contentType = split.contentType ∧ e.stripped = split.stripped := by
  have hl : ((empty.insert "one" split deadline).markPersisted
      split.digest |>.insert "two" split deadline).byId.lookup id = some e := h
  rw [lookup_insert] at hl
  split at hl
  · next hid =>
    cases hl
    exact ⟨hid, (le_max_left _ _).trans le_entryFor, rfl, rfl, rfl⟩
  · next hid =>
    have hl : (empty.insert "one" split deadline).byId.lookup id = some e := hl
    rw [lookup_insert, if_neg hid] at hl
    cases hl

theorem retained_aliased (split : SplitSession) :
    Retained (aliased split 9).markAllPersisted 6 split.sessionId
    (entryFor ((empty.insert "one" split 9).markPersisted
      split.digest) "two" split 9) :=
  ⟨lookup_insert.trans (if_pos rfl),
    lt_of_lt_of_le (by decide) ((le_max_left _ _).trans le_entryFor)⟩

theorem run_alias (reader : Reader) (hn : SplitSession.new sha256 session = some split)
    (hD : 6 < max 7 split.stripped.expiresAt) :
    ∃ s, (opened sha256 reader [] 0).run (aliasRun session) = some s ∧
      s.job = .idle ∧ s.world.sealed = [session, session] ∧
      s.world.index = aliased split (max 7 split.stripped.expiresAt) := by
  have h5 : (5 : U64) < max 7 split.stripped.expiresAt := lt_trans (by decide) hD
  obtain ⟨s, out, hrun, -, -, hjob, -, hwriter, hworld⟩ := run_first reader (records_nil reader)
    hn "one" 7 5
  have hdist : ∀ sealed : List (AttestedSession sha256), (∀ x ∈ sealed, x = session) →
      Distinct sealed := fun _ h => distinct_same session h
  have hgood₀ : Good (⟨empty, [], [], [.ran 5]⟩ : World sha256) :=
    ⟨inv_empty, by simp, fun _ _ h => h.2.elim⟩
  have hindex : s.world.index = (empty.insert "one" split
      (max 7 split.stripped.expiresAt)).markPersisted split.digest := by
    rw [hworld]
    exact store_index_of_live hgood₀ hn (hdist _ (by simp)) h5 (fun _ _ h => by cases h)
  have hsealed : s.world.sealed = [session] := by
    rw [hworld, store_eq]
    rfl
  have hgood := good_jsonl hrun (by rw [hsealed]; exact distinct_singleton session)
  have hlive : ∀ id e, s.world.index.byId.lookup id = some e → 5 < e.retentionUntil := by
    intro id e hl
    rw [hindex] at hl
    have hl : (empty.insert "one" split _).byId.lookup id = some e := hl
    rw [lookup_insert] at hl
    split at hl
    · cases hl
      exact h5.trans_le ((le_max_left _ _).trans le_entryFor)
    · cases hl
  have hevict : s.world.index.evictLapsed s.world.held 5 = s.world.index :=
    evictLapsed_of_live hgood.inv hlive
  -- Nothing is filed under the second fingerprint yet.
  have hcur : s.world.current "two" 7 5 =
      (none, { s.world with trace := .ran 5 :: s.world.trace }) := by
    have hc : s.world.index.current s.world.held "two" 7 5 = (none, s.world.index) := by
      rcases current_cases s.world.held s.world.index "two" 7 5 with hc | ⟨id, _, _, hf, -⟩
      · rw [hc, hevict]
      · rw [hevict, hindex] at hf
        have hf : (empty.byFingerprint.insert "one" split.sessionId).lookup "two" =
          some id := hf
        cases hf
    simp only [World.current, hc]
  let w : World sha256 := { s.world with trace := .ran 5 :: s.world.trace }
  have hrun₂ := run_append hjob (congrArg Prod.fst hcur) hn none
  simp only [hcur] at hrun₂
  have hall : (opened sha256 reader [] 0).run (aliasRun session) =
      some ({ s with world := w }.write "two" session split 7 5
        (w.index.bundlePersisted split.digest) none) := by
    have hcat := run_append_list (s := opened sha256 reader [] 0)
      [.lookupLocked "one" 7 5, .sealed (.ok session), .write none]
      [.lookupLocked "two" 7 5, .sealed (.ok session), .write none]
    rw [hrun] at hcat
    exact hcat.trans hrun₂
  obtain ⟨out₂, next₂, hout₂⟩ := exists_appendText (w := s.writer) (by rw [hwriter]; decide)
    (w.index.bundlePersisted split.digest) "two" split 7 5
  rcases write_cases { s with world := w } "two" session split 7 5
      (w.index.bundlePersisted split.digest) none with
    ⟨⟨e, he⟩, -⟩ | ⟨_, _, _, -, hf, -⟩ | ⟨out', next', -, -, hw⟩
  · cases he.symm.trans hout₂
  · cases hf
  · rw [hw] at hall
    refine ⟨_, hall, rfl, ?_, ?_⟩
    · rw [store_eq]
      exact congrArg (session :: ·) hsealed
    · have hgood' : Good w := by
        have hg := hgood.current "two" 7 5
        rwa [hcur] at hg
      refine (store_index_of_live hgood' hn (hdist _ ?_) h5 hlive).trans ?_
      · intro x hx
        rcases mem_cons.mp hx with rfl | hx
        · rfl
        · rw [hsealed] at hx
          exact mem_singleton.mp hx
      · rw [hindex]
        rfl

/-- How many records a compaction of the index writes. -/
def SessionIndex.size (ix : SessionIndex) : Nat :=
  ix.bundles.entries.length + ix.byId.entries.length

theorem size_insert_le (ix : SessionIndex) (fingerprint : String) (split : SplitSession)
    (deadline : U64) : (ix.insert fingerprint split deadline).size ≤ ix.size + 2 := by
  have hid : (ix.insert fingerprint split deadline).byId.entries.length ≤
      ix.byId.entries.length + 1 := by
    rw [insert_byId]
    exact FinMap.length_insert_le ..
  have hb : (ix.insert fingerprint split deadline).bundles.entries.length ≤
      ix.bundles.entries.length + 1 := by
    rw [insert_bundles]
    split
    · exact Nat.le_succ _
    · unfold cite
      split <;> exact FinMap.length_insert_le ..
  unfold size
  omega

theorem size_markPersisted_le (ix : SessionIndex) (digest : String) :
    (ix.markPersisted digest).size ≤ ix.size + 1 := by
  have hb := FinMap.length_modify_le ix.bundles digest ({ · with persisted := true })
  simp only [size, markPersisted]
  omega

theorem compactable_aliased (hrep : replayable split.contentType)
    (hdepth : depth split.stripped.toValue ≤ 127) :
    Compactable (aliased split deadline) where
  replays id e hl := by
    obtain ⟨-, -, -, hct, hstrip⟩ := lookup_aliased hl
    rw [hct, hstrip]
    exact ⟨hrep, hdepth⟩
  size := by
    let once := (empty.insert "one" split deadline).markPersisted split.digest
    have h₁ := size_insert_le empty "one" split deadline
    have h₂ := size_markPersisted_le (empty.insert "one" split deadline) split.digest
    have h₃ := size_insert_le once "two" split deadline
    have h₄ := size_markPersisted_le (once.insert "two" split deadline) split.digest
    have h₀ : empty.size = 0 := rfl
    have hsize : (aliased split deadline).size ≤ 6 := by
      simp only [aliased, once] at *
      omega
    exact lt_of_le_of_lt hsize (by decide)

/-- The two calls, a compaction at 6, and what it leaves. -/
theorem compact_alias (reader : Reader) {contentType : String} {bundle : Bytes}
    (hdoc : session.document = .bare 5 9 (.fromBytes sha256 contentType bundle))
    (hn : SplitSession.new sha256 session = some split) (hct : split.contentType = contentType)
    (hrep : replayable contentType) :
    ∃ s s', (opened sha256 reader [] 0).run (aliasRun session) = some s ∧
      s.run [.compact 6, .swap true] = some s' ∧ Distinct s.world.sealed ∧
      Inv s.world.sealed (aliased split 9) ∧ Compactable (aliased split 9) ∧
      s'.file = ((aliased split 9).compactLines 6).flatten ∧
      s'.world.index = (aliased split 9).markAllPersisted := by
  have hexp : split.stripped.expiresAt = 9 := by
    rw [(split_spec hn).2.1, hdoc]
    rfl
  have hD : max 7 split.stripped.expiresAt = 9 := by
    rw [hexp]
    decide
  obtain ⟨s, hrun, hjob, hsealed, hindex⟩ := run_alias reader hn (by rw [hD]; decide)
  rw [hD] at hindex
  have hd : Distinct s.world.sealed := by
    rw [hsealed]
    exact distinct_same session (by simp)
  have hi := (good_jsonl hrun hd).inv
  rw [hindex] at hi
  have hevict : (s.world.evict 6).index = aliased split 9 := by
    change s.world.index.evictLapsed _ _ = _
    rw [hindex]
    refine evictLapsed_of_live hi ?_
    intro id e hl
    exact lt_of_lt_of_le (by decide) (lookup_aliased hl).2.1
  have hdepth : depth split.stripped.toValue ≤ 127 := by
    rw [(split_spec hn).2.1, depth_strip, hdoc, depth_bare]
    omega
  obtain ⟨s', hcompact⟩ : ∃ s', s.run [.compact 6, .swap true] = some s' := by
    simp [run, step, hjob]
  obtain ⟨hworld, hfile⟩ := compact_swap hcompact
  rw [hevict] at hworld hfile
  exact ⟨s, s', hrun, hcompact, hd, hi, compactable_aliased (hct ▸ hrep) hdepth, hfile,
    by rw [hworld]⟩

end Alias

/-- The session filed twice is served by the reopened store, as the compacted one served it. -/
theorem compact_reopen_served : ∃ (session : AttestedSession Sha2.sha256)
    (s s' : JsonlStore Sha2.sha256),
    (JsonlStore.opened Sha2.sha256 Reader.strict [] 0).run (aliasRun session) = some s ∧
    s.run [.compact 6, .swap true] = some s' ∧
    ∃ before after, (s'.world.get session.sessionId 6).1 = some before ∧
      served Sha2.sha256 Reader.strict s'.file 6 session.sessionId = some after ∧
      after.bytes = before.bytes := by
  obtain ⟨session, split, hdoc, hn, hct, -⟩ :=
    exists_split_bare Sha2.sha256 5 9 "text/plain" [1] (by decide)
  obtain ⟨s, s', hrun, hcompact, hd, hi, hc, hfile, hindex⟩ :=
    compact_alias Reader.strict hdoc hn hct (by decide)
  refine ⟨session, s, s', hrun, hcompact, ?_⟩
  have hret := retained_aliased split
  rw [← hindex, (split_spec hn).1] at hret
  exact ((compact_reopen hrun hcompact hd
    (by rw [hindex]; exact compactable_markAllPersisted.mpr hc)).2.1 _ _ hret).2

/-- A session reached through two fingerprints: compaction keeps the session, and the reopened
store has lost the first of its two names. -/
theorem compact_reopen_alias : ∃ (session : AttestedSession Sha2.sha256)
    (s s' : JsonlStore Sha2.sha256),
    (JsonlStore.opened Sha2.sha256 Reader.strict [] 0).run (aliasRun session) = some s ∧
    s.run [.compact 6, .swap true] = some s' ∧ Compactable s'.world.index ∧
    (∃ e, Retained s'.world.index 6 session.sessionId e) ∧
    s'.world.index.byFingerprint.lookup "one" = some session.sessionId ∧
    (openLog Sha2.sha256 Reader.strict s'.file 6).1.byFingerprint.lookup "one" = none := by
  obtain ⟨session, split, hdoc, hn, hct, -⟩ :=
    exists_split_bare Sha2.sha256 5 9 "text/plain" [1] (by decide)
  obtain ⟨s, s', hrun, hcompact, hd, hi, hc, hfile, hindex⟩ :=
    compact_alias Reader.strict hdoc hn hct (by decide)
  obtain ⟨hid, -, -, -⟩ := split_spec hn
  refine ⟨session, s, s', hrun, hcompact, ?_, ?_, ?_, ?_⟩
  · rw [hindex]
    exact compactable_markAllPersisted.mpr hc
  · rw [hindex, ← hid]
    exact ⟨_, retained_aliased split⟩
  · rw [hindex, ← hid]
    rfl
  · rw [hfile]
    cases hl : (openLog Sha2.sha256 Reader.strict ((aliased split 9).compactLines 6).flatten
      6).1.byFingerprint.lookup "one" with
    | none => rfl
    | some id =>
      obtain ⟨e, he, hf, -⟩ := (fingerprint_reopen hd hi hc "one" id).mp hl
      rw [(lookup_aliased he.1).2.2.1] at hf
      exact absurd hf (by decide)

end AciGateway.Session
