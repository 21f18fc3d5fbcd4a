import AciGateway.Transform.Errors

/-! Host names in the texts of upstream errors, and which texts reach the client with one. -/
namespace AciGateway.Transform

open Json Sse List

def isLabelChar (c : Char) : Bool := isAsciiAlphanumeric c || c == '-'

def isTokenChar (c : Char) : Bool := isAsciiAlphanumeric c || isPunctuation c

/-! Host names. -/

def IsLabel (l : List Char) : Prop := l ≠ [] ∧ ∀ c ∈ l, isLabelChar c

/-- A name under a known top-level domain, or four octets. -/
inductive HostName : List Char → Prop
  | domain {labels : List (List Char)} {tld : List Char} (hne : labels ≠ [])
      (hlabels : ∀ l ∈ labels, IsLabel l)
      (htld : ∃ t ∈ hostTlds, t.toList = toAsciiLowercase tld) :
      HostName (['.'].intercalate (labels ++ [tld]))
  | quad {octets : List (List Char)} (hlength : octets.length = 4)
      (hoctets : ∀ o ∈ octets, o ≠ [] ∧ (∀ c ∈ o, c.isDigit) ∧ isOctet o) :
      HostName (['.'].intercalate octets)

/-- A host name occurs in the text, and no further character of a label stands beside it. -/
def Names (text : List Char) : Prop :=
  ∃ a h b, text = a ++ h ++ b ∧ HostName h ∧ (∀ c ∈ a.getLast?, isLabelChar c = false) ∧
    ∀ c ∈ b.head?, isLabelChar c = false

/-- A host name occurs in the text with nothing but punctuation between it and the ends of the
run of letters, digits and punctuation that it is in. -/
def StandsAlone (text : List Char) : Prop :=
  ∃ a x h y b, text = a ++ (x ++ h ++ y) ++ b ∧ HostName h ∧
    (∀ c ∈ h.head?, isAsciiAlphanumeric c) ∧ (∀ c ∈ x, isPunctuation c) ∧
    (∀ c ∈ y, isPunctuation c) ∧ (∀ c ∈ a.getLast?, isTokenChar c = false) ∧
    ∀ c ∈ b.head?, isTokenChar c = false

/-- The text has no URL and no host name in it. -/
def Clean (text : String) : Prop := Text.contains text "://" = false ∧ ¬ Names text.toList

/-- A text that names a host has a URL, or a host name that stands alone. -/
def Guarded (text : String) : Prop :=
  Names text.toList → Text.contains text "://" = true ∨ StandsAlone text.toList

/-! The words of a text. -/

/-- Either no character separates words, or a first one does. -/
theorem exists_first {p : Char → Bool} (l : List Char) :
    (∀ c ∈ l, p c = false) ∨ ∃ xs s rest, l = xs ++ s :: rest ∧ (∀ c ∈ xs, p c = false) ∧ p s = true := by
  induction l with
  | nil => exact .inl (by simp)
  | cons d l ih =>
    cases hd : p d with
    | true => exact .inr ⟨[], d, l, rfl, by simp, hd⟩
    | false =>
      rcases ih with h | ⟨xs, s, rest, rfl, h, hs⟩
      · exact .inl (forall_mem_cons.mpr ⟨hd, h⟩)
      · exact .inr ⟨d :: xs, s, rest, rfl, forall_mem_cons.mpr ⟨hd, h⟩, hs⟩

theorem mem_splitOnP_iff {p : Char → Bool} {w l : List Char} :
    w ∈ l.splitOnP p ↔ ∃ a b, l = a ++ w ++ b ∧ (∀ c ∈ w, p c = false) ∧
      (∀ c ∈ a.getLast?, p c = true) ∧ ∀ c ∈ b.head?, p c = true := by
  constructor
  · intro hw
    induction hn : l.length using Nat.strong_induction_on generalizing l with
    | _ n ih =>
      rcases exists_first l with hall | ⟨xs, s, rest, rfl, hxs, hs⟩
      · rw [splitOnP_eq_singleton hall, mem_singleton] at hw
        subst hw
        exact ⟨[], [], by simp, hall, by simp, by simp⟩
      · rw [splitOnP_append_cons_of_forall_mem hxs s hs, mem_cons] at hw
        rcases hw with rfl | hw
        · exact ⟨[], s :: rest, by simp, hxs, by simp, by simpa using hs⟩
        · obtain ⟨a, b, rfl, hword, ha, hb⟩ := ih rest.length (by simp at hn; omega) hw rfl
          refine ⟨xs ++ s :: a, b, by simp, hword, ?_, hb⟩
          rcases eq_nil_or_concat a with rfl | ⟨a, t, rfl⟩
          · simpa using hs
          · simpa [getLast?_append, getLast?_cons] using ha
  · rintro ⟨a, b, rfl, hw, ha, hb⟩
    have hrest : w ∈ (w ++ b).splitOnP p := by
      cases b with
      | nil => simp [splitOnP_eq_singleton hw]
      | cons s b =>
        rw [splitOnP_append_cons_of_forall_mem hw s (hb s rfl)]
        exact mem_cons_self
    rcases eq_nil_or_concat a with rfl | ⟨a, s, rfl⟩
    · simpa using hrest
    · rw [concat_eq_append, append_assoc, append_assoc, singleton_append,
        splitOnP_append_cons _ _ (ha s (by simp))]
      exact mem_append_right _ hrest

/-- What trimming takes off a word is punctuation, and it leaves none at the ends. -/
theorem trimPunctuation_spec (w : List Char) :
    ∃ x y, w = x ++ trimPunctuation w ++ y ∧ (∀ c ∈ x, isPunctuation c) ∧
      (∀ c ∈ y, isPunctuation c) ∧ ∀ c ∈ (trimPunctuation w).head?, isPunctuation c = false := by
  have hstart := takeWhile_append_dropWhile (p := isPunctuation) (l := w)
  have hend := takeWhile_append_dropWhile (p := isPunctuation)
    (l := (w.dropWhile isPunctuation).reverse)
  have hinner : w.dropWhile isPunctuation = trimPunctuation w ++
      ((w.dropWhile isPunctuation).reverse.takeWhile isPunctuation).reverse := by
    rw [trimPunctuation, ← reverse_append, hend, reverse_reverse]
  refine ⟨w.takeWhile isPunctuation,
    ((w.dropWhile isPunctuation).reverse.takeWhile isPunctuation).reverse, ?_, ?_, ?_, ?_⟩
  · rw [append_assoc, ← hinner, hstart]
  · exact fun c hc => mem_takeWhile_imp hc
  · exact fun c hc => mem_takeWhile_imp (mem_reverse.mp hc)
  · intro c hc
    have hhead : (w.dropWhile isPunctuation).head? = some c := by
      rw [hinner, head?_append, hc]
      rfl
    have hnot := head?_dropWhile_not isPunctuation w
    rwa [hhead] at hnot

theorem dropWhile_punctuation {x h : List Char} (hx : ∀ c ∈ x, isPunctuation c) (hne : h ≠ [])
    (hhead : ∀ c ∈ h.head?, isPunctuation c = false) : (x ++ h).dropWhile isPunctuation = h := by
  rw [dropWhile_append_of_pos hx]
  obtain ⟨c, h, rfl⟩ := exists_cons_of_ne_nil hne
  simp [hhead c rfl]

theorem trimPunctuation_eq {x h y : List Char} (hx : ∀ c ∈ x, isPunctuation c)
    (hy : ∀ c ∈ y, isPunctuation c) (hhead : ∀ c ∈ h.head?, isPunctuation c = false)
    (hlast : ∀ c ∈ h.getLast?, isPunctuation c = false) (hne : h ≠ []) :
    trimPunctuation (x ++ h ++ y) = h := by
  have hheads : ∀ c ∈ (h ++ y).head?, isPunctuation c = false := by
    obtain ⟨c, h, rfl⟩ := exists_cons_of_ne_nil hne
    simpa using hhead
  have hreverse : ∀ c ∈ h.reverse.head?, isPunctuation c = false := by
    rwa [head?_reverse]
  rw [trimPunctuation, append_assoc, dropWhile_punctuation hx (by simp [hne]) hheads,
    reverse_append, dropWhile_punctuation (fun c hc => hy c (mem_reverse.mp hc))
      (by simpa using hne) hreverse, reverse_reverse]

/-! The code's test of a word. -/

theorem not_isPunctuation {c : Char} (h : isAsciiAlphanumeric c = true) : isPunctuation c = false := by
  rw [Bool.eq_false_iff]
  intro hp
  simp only [isPunctuation, Bool.or_eq_true, beq_iff_eq] at hp
  rcases hp with (rfl | rfl) | rfl <;> exact absurd h (by decide)

theorem isDigit_of_isOctet {o : List Char} (h : isOctet o = true) (htoken : ∀ c ∈ o, isTokenChar c) :
    o ≠ [] ∧ ∀ c ∈ o, c.isDigit := by
  rw [isOctet, U64.parse, String.toList_ofList] at h
  split at h
  · exact absurd (htoken '+' mem_cons_self) (by decide)
  · by_cases hdigits : o ≠ [] ∧ o.all Char.isDigit = true
    · exact ⟨hdigits.1, all_eq_true.mp hdigits.2⟩
    · rw [if_neg hdigits] at h
      cases h

theorem tld_spec {tld : List Char} (h : ∃ t ∈ hostTlds, t.toList = toAsciiLowercase tld) :
    tld ≠ [] ∧ ∀ c ∈ tld, isAsciiAlphanumeric c := by
  obtain ⟨t, ht, heq⟩ := h
  have hall : (hostTlds.all fun t => !t.toList.isEmpty && t.toList.all isAsciiAlphanumeric) = true := rfl
  have hlower : ∀ t ∈ hostTlds, t.toList ≠ [] ∧ ∀ c ∈ t.toList, isAsciiAlphanumeric c := by
    simpa using hall
  refine ⟨?_, ?_⟩
  · rintro rfl
    exact (hlower t ht).1 heq
  · intro c hc
    have hmem : c.toLower ∈ t.toList := by
      rw [heq]
      exact mem_map_of_mem hc
    have hlow := (hlower t ht).2 _ hmem
    by_cases hupper : c.isUpper
    · simp [isAsciiAlphanumeric, Char.isAlphanum, Char.isAlpha, hupper]
    · rwa [Char.toLower_eq_of_not_isUpper hupper] at hlow

theorem dot_notMem {l : List Char} (h : ∀ c ∈ l, isLabelChar c) : '.' ∉ l := fun hc =>
  absurd (h _ hc) (by decide)

theorem isLabelChar_of_alphanumeric {c : Char} (h : isAsciiAlphanumeric c = true) :
    isLabelChar c = true := by simp [isLabelChar, h]

theorem isLabelChar_of_isDigit {c : Char} (h : c.isDigit = true) : isLabelChar c = true := by
  simp [isLabelChar, isAsciiAlphanumeric, Char.isAlphanum, h]

/-- The labels of a host name, and its last one. -/
theorem HostName.labels {h : List Char} (hh : HostName h) :
    ∃ ls l, h = ['.'].intercalate (ls ++ [l]) ∧ ls ≠ [] ∧ (∀ x ∈ ls ++ [l], IsLabel x) ∧
      ∀ c ∈ l, isAsciiAlphanumeric c := by
  cases hh with
  | @domain labels tld hne hlabels htld =>
    obtain ⟨hnil, htld⟩ := tld_spec htld
    refine ⟨labels, tld, rfl, hne, ?_, htld⟩
    intro x hx
    rcases mem_append.mp hx with hx | hx
    · exact hlabels x hx
    · rw [mem_singleton.mp hx]
      exact ⟨hnil, fun c hc => isLabelChar_of_alphanumeric (htld c hc)⟩
  | @quad octets hlength hoctets =>
    rcases eq_nil_or_concat octets with rfl | ⟨init, last, rfl⟩
    · cases hlength
    · rw [concat_eq_append] at hlength hoctets ⊢
      refine ⟨init, last, rfl, ?_, ?_, ?_⟩
      · rintro rfl
        cases hlength
      · exact fun x hx => ⟨(hoctets x hx).1, fun c hc => isLabelChar_of_isDigit ((hoctets x hx).2.1 c hc)⟩
      · intro c hc
        have hdigit := (hoctets last (by simp)).2.1 c hc
        simp [isAsciiAlphanumeric, Char.isAlphanum, hdigit]

theorem intercalate_concat {ls : List (List Char)} (hne : ls ≠ []) (l : List Char) :
    ['.'].intercalate (ls ++ [l]) = ['.'].intercalate ls ++ '.' :: l := by
  induction ls with
  | nil => exact absurd rfl hne
  | cons x ls ih =>
    by_cases hls : ls = []
    · subst hls
      simp [intercalate_cons_cons]
    · rw [cons_append, intercalate_cons_of_ne_nil (by simp), ih hls, intercalate_cons_of_ne_nil hls]
      simp

theorem isTokenChar_intercalate {ls : List (List Char)} (h : ∀ x ∈ ls, IsLabel x) :
    ∀ c ∈ ['.'].intercalate ls, isTokenChar c := by
  have hlabel {c : Char} (hc : isLabelChar c = true) : isTokenChar c = true := by
    simp only [isLabelChar, isTokenChar, isPunctuation, Bool.or_eq_true] at hc ⊢
    tauto
  induction ls with
  | nil => simp
  | cons x ls ih =>
    rw [forall_mem_cons] at h
    intro c hc
    by_cases hls : ls = []
    · subst hls
      exact hlabel (h.1.2 c (by simpa using hc))
    · rw [intercalate_cons_of_ne_nil hls] at hc
      simp only [mem_append, mem_singleton] at hc
      rcases hc with (hc | rfl) | hc
      · exact hlabel (h.1.2 c hc)
      · decide
      · exact ih h.2 c hc

theorem hostName_spec {h : List Char} (hh : HostName h) :
    (∀ c ∈ h, isTokenChar c) ∧ h ≠ [] ∧ '.' ∈ h ∧ ∀ c ∈ h.getLast?, isAsciiAlphanumeric c := by
  obtain ⟨ls, l, rfl, hne, hlabels, hlast⟩ := hh.labels
  refine ⟨isTokenChar_intercalate hlabels, ?_⟩
  rw [intercalate_concat hne]
  have hl : l ≠ [] := (hlabels l (by simp)).1
  refine ⟨by simp, by simp, fun c hc => hlast c ?_⟩
  rw [getLast?_append_of_ne_nil _ (by simp), getLast?_cons, Option.mem_def, Option.some_inj] at hc
  obtain ⟨init, d, rfl⟩ := (eq_nil_or_concat l).resolve_left hl
  simp_all

theorem isHostnameLike_intercalate {parts : List (List Char)} (hlong : 2 ≤ parts.length)
    (hlabels : ∀ x ∈ parts, IsLabel x) :
    isHostnameLike (['.'].intercalate parts) =
      (parts.length = 4 && parts.all isOctet ||
        hostTlds.contains (String.ofList (toAsciiLowercase (parts.getLastD []))) &&
          parts.dropLast.all (·.all isLabelChar)) := by
  have hsplit : (['.'].intercalate parts).splitOn '.' = parts :=
    splitOn_intercalate '.' (fun x hx => dot_notMem (hlabels x hx).2) (by
      rintro rfl
      cases hlong)
  have hfilled : parts.any (·.isEmpty) = false := by
    simpa using fun x hx => (hlabels x hx).1
  rw [isHostnameLike, hsplit]
  have hshort : decide (parts.length < 2) = false := decide_eq_false (by omega)
  simp only [hfilled, hshort, Bool.or_self, Bool.false_eq_true, if_false]
  cases (decide (parts.length = 4) && parts.all isOctet) <;> rfl

/-- On words, the test of the code is the definition of a host name. -/
theorem isHostnameLike_iff {w : List Char} (hw : ∀ c ∈ w, isTokenChar c) :
    isHostnameLike w = true ↔ HostName w := by
  constructor
  · intro h
    have hwhole : ['.'].intercalate (w.splitOn '.') = w := List.intercalate_splitOn '.'
    have hpart : ∀ x ∈ w.splitOn '.', ∀ c ∈ x, isTokenChar c := by
      intro x hx c hc
      obtain ⟨a, b, hab, -⟩ := mem_splitOnP_iff.mp hx
      exact hw c (by rw [hab]; simp [hc])
    unfold isHostnameLike at h
    generalize w.splitOn '.' = parts at h hwhole hpart
    subst hwhole
    dsimp only at h
    split at h
    · cases h
    · next hshape =>
      split at h
      · next hquad =>
        simp only [Bool.and_eq_true, decide_eq_true_eq, List.all_eq_true] at hquad
        refine .quad hquad.1 fun o ho => ?_
        obtain ⟨hne, hdigits⟩ := isDigit_of_isOctet (hquad.2 o ho) (hpart o ho)
        exact ⟨hne, hdigits, hquad.2 o ho⟩
      · simp only [Bool.or_eq_true, decide_eq_true_eq, List.any_eq_true, not_or, not_exists,
          List.isEmpty_iff, not_lt] at hshape
        simp only [Bool.and_eq_true, List.contains_iff_mem, List.all_eq_true] at h
        rcases List.eq_nil_or_concat parts with rfl | ⟨init, last, rfl⟩
        · simp at hshape
        · rw [List.concat_eq_append] at hshape h ⊢
          refine .domain ?_ ?_ ⟨_, h.1, by simp⟩
          · rintro rfl
            simp at hshape
          · intro l hl
            refine ⟨fun hnil => hshape.2 l ⟨by simp [hl], hnil⟩, ?_⟩
            simpa [isLabelChar] using h.2 l (by simpa using hl)
  · intro h
    cases h with
    | @domain labels tld hne hlabels htld =>
      obtain ⟨hnil, hchars⟩ := tld_spec htld
      have hall : ∀ x ∈ labels ++ [tld], IsLabel x := by
        simp only [List.mem_append, List.mem_singleton]
        rintro x (hx | rfl)
        · exact hlabels x hx
        · exact ⟨hnil, fun c hc => isLabelChar_of_alphanumeric (hchars c hc)⟩
      have hlong : 2 ≤ (labels ++ [tld]).length := by
        have := List.length_pos_of_ne_nil hne
        simp only [List.length_append, List.length_singleton]
        omega
      obtain ⟨t, ht, heq⟩ := htld
      rw [isHostnameLike_intercalate hlong hall, Bool.or_eq_true]
      right
      rw [List.getLastD_concat, List.dropLast_concat, ← heq, String.ofList_toList, Bool.and_eq_true]
      exact ⟨List.contains_iff_mem.mpr ht, List.all_eq_true.mpr fun l hl =>
        List.all_eq_true.mpr (hlabels l hl).2⟩
    | @quad octets hlength hoctets =>
      have hall : ∀ o ∈ octets, IsLabel o := fun o ho =>
        ⟨(hoctets o ho).1, fun c hc => isLabelChar_of_isDigit ((hoctets o ho).2.1 c hc)⟩
      rw [isHostnameLike_intercalate (by omega) hall, Bool.or_eq_true]
      left
      simpa [hlength] using fun o ho => (hoctets o ho).2.2

theorem standsAlone_iff (text : List Char) :
    ((text.splitOnP fun c => !isTokenChar c).any
      fun word => isHostnameLike (trimPunctuation word)) = true ↔ StandsAlone text := by
  rw [any_eq_true]
  constructor
  · rintro ⟨w, hw, hlike⟩
    obtain ⟨a, b, rfl, hword, ha, hb⟩ := mem_splitOnP_iff.mp hw
    obtain ⟨x, y, hsplit, hx, hy, hhead⟩ := trimPunctuation_spec w
    have htoken : ∀ c ∈ w, isTokenChar c := fun c hc => by simpa using hword c hc
    have htrimmed : ∀ c ∈ trimPunctuation w, isTokenChar c := fun c hc =>
      htoken c (by rw [hsplit]; simp [hc])
    refine ⟨a, x, trimPunctuation w, y, b, by rw [← hsplit], (isHostnameLike_iff htrimmed).mp hlike,
      ?_, hx, hy, fun c hc => by simpa using ha c hc, fun c hc => by simpa using hb c hc⟩
    intro c hc
    have hp := hhead c hc
    simpa [isTokenChar, hp] using htrimmed c (mem_of_head? hc)
  · rintro ⟨a, x, h, y, b, rfl, hhost, hhead, hx, hy, ha, hb⟩
    obtain ⟨htoken, hne, -, hlast⟩ := hostName_spec hhost
    have hpunct {c : Char} (hc : isPunctuation c = true) : isTokenChar c = true := by
      simp [isTokenChar, hc]
    refine ⟨x ++ h ++ y, mem_splitOnP_iff.mpr ⟨a, b, rfl, ?_, fun c hc => by simpa using ha c hc,
      fun c hc => by simpa using hb c hc⟩, ?_⟩
    · intro c hc
      rw [Bool.not_eq_false']
      simp only [mem_append] at hc
      rcases hc with (hc | hc) | hc
      · exact hpunct (hx c hc)
      · exact htoken c hc
      · exact hpunct (hy c hc)
    · rw [trimPunctuation_eq hx hy (fun c hc => not_isPunctuation (hhead c hc))
        (fun c hc => not_isPunctuation (hlast c hc)) hne]
      exact (isHostnameLike_iff htoken).mpr hhost

theorem looksIdentifying_iff (m : String) :
    looksIdentifying m = true ↔ Text.contains m "://" = true ∨ StandsAlone m.toList := by
  rw [looksIdentifying, Bool.or_eq_true]
  exact or_congr_right (standsAlone_iff m.toList)

theorem not_names_nil : ¬ Names [] := by
  rintro ⟨a, h, b, heq, hhost, -⟩
  have hnil : h = [] := by
    have hlength := congrArg length heq
    simp only [length_nil, length_append] at hlength
    exact eq_nil_of_length_eq_zero (by omega)
  exact (hostName_spec hhost).2.1 hnil

/-- What passes the test is clean exactly when the text is guarded. -/
theorem clean_iff_guarded {m : String} (h : looksIdentifying m = false) : Clean m ↔ Guarded m := by
  have hboth : ¬ (Text.contains m "://" = true ∨ StandsAlone m.toList) := by
    rw [← looksIdentifying_iff, h]
    decide
  have hurl : Text.contains m "://" = false := by
    rw [← Bool.not_eq_true]
    exact fun hc => hboth (.inl hc)
  exact ⟨fun hclean hnames => absurd hnames hclean.2, fun hguard => ⟨hurl, fun hn => hboth (hguard hn)⟩⟩

theorem guarded_of_looksIdentifying {m : String} (h : looksIdentifying m = true) : Guarded m :=
  fun _ => (looksIdentifying_iff m).mp h

theorem clean_fallback : Clean "the provider returned an error" := by
  refine ⟨by decide, ?_⟩
  rintro ⟨a, h, b, heq, hhost, -⟩
  have hdot : '.' ∈ "the provider returned an error".toList := by
    rw [heq]
    simp [(hostName_spec hhost).2.2.1]
  exact absurd hdot (by decide)

/-- The message and the parameter of an error reach the client without a host exactly when the
text is guarded. -/
theorem relayed_clean_iff (raw : String) :
    (Clean (clientSafeErrorText raw) ↔ Guarded (Text.trim raw)) ∧
      ((∀ param ∈ clientErrorParam (some (.str raw)), Clean param) ↔ Guarded raw) := by
  constructor
  · rw [clientSafeErrorText, scrubIdentifyingMarkers]
    generalize Text.trim raw = m
    by_cases hempty : m = ""
    · subst hempty
      exact iff_of_true clean_fallback fun hn => absurd hn not_names_nil
    · cases hlooks : looksIdentifying m with
      | true => exact iff_of_true (by simpa using clean_fallback) (guarded_of_looksIdentifying hlooks)
      | false => simpa [hempty] using clean_iff_guarded hlooks
  · cases hlooks : looksIdentifying raw with
    | true =>
      refine iff_of_true ?_ (guarded_of_looksIdentifying hlooks)
      simp [clientErrorParam, Value.asStr?, hlooks]
    | false => simpa [clientErrorParam, Value.asStr?, hlooks] using clean_iff_guarded hlooks

/-- An underscore joins the host to a word that is not one. -/
theorem joined_host_relayed :
    clientSafeErrorText "x_api.acme.ai" = "x_api.acme.ai" ∧ Names "x_api.acme.ai".toList := by
  have hlabels : ∀ l ∈ [['a', 'p', 'i'], ['a', 'c', 'm', 'e']], IsLabel l := by
    simp [IsLabel, isLabelChar, isAsciiAlphanumeric]
  have hhost := @HostName.domain _ ['a', 'i'] (by simp) hlabels ⟨"ai", by decide, rfl⟩
  refine ⟨rfl, ['x', '_'], _, [], rfl, hhost, ?_, by simp⟩
  simp [isLabelChar, isAsciiAlphanumeric]

end AciGateway.Transform
