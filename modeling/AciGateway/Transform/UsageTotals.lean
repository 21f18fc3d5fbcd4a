import AciGateway.Transform.AnthropicChat

/-! The sums that usage conversions compute, as machine integers compute them. -/
namespace AciGateway.Transform

open Json Binary64

def InI64 (z : Int) : Prop := i64Min ≤ z ∧ z ≤ i64Max

def clampI64 (z : Int) : Int := max i64Min (min i64Max z)

/-- Adding the terms one after another never leaves the range. -/
def NoOverflow (s : Int) : List Int → Prop
  | [] => True
  | z :: zs => InI64 (s + z) ∧ NoOverflow (wrap (s + z)) zs

/-- The counters of an Anthropic usage. -/
structure Counters where
  input : Int
  output : Int
  read : Int
  creation : Int

def counters (source : Value) : Counters :=
  ⟨i64Field source "input_tokens", i64Field source "output_tokens",
    i64Field source "cache_read_input_tokens", i64Field source "cache_creation_input_tokens"⟩

/-! What each conversion adds up, and the sums it shows. -/

def cachedTokens (usage : Option Value) : Int × Int :=
  let cache := chatCacheTokens (usage.getD .null)
  (cache.1.getD 0, cache.2.getD 0)

def chatCount (usage : Option Value) (key : String) : Int := i64Field (usage.getD .null) key

/-- Chat to Messages: the cache is taken out of the prompt. -/
structure MessagesSafe (usage : Option Value) : Prop where
  cached : NoOverflow (cachedTokens usage).1 [(cachedTokens usage).2]
  uncached : InI64 (chatCount usage "prompt_tokens" -
    wrap ((cachedTokens usage).1 + (cachedTokens usage).2))
  input : i64Field (messagesUsage usage) "input_tokens" =
    clampI64 (max (chatCount usage "prompt_tokens" -
      ((cachedTokens usage).1 + (cachedTokens usage).2)) 0)

/-- Chat to Responses: a total that is missing is added up. -/
structure ResponsesSafe (usage : Option Value) : Prop where
  added : chatCount usage "total_tokens" = 0 →
    NoOverflow (chatCount usage "prompt_tokens") [chatCount usage "completion_tokens"]
  total : chatCount usage "total_tokens" = 0 →
    i64Field (responsesUsage usage) "total_tokens" =
      clampI64 (chatCount usage "prompt_tokens" + chatCount usage "completion_tokens")

/-- Anthropic to Chat, for a whole message. -/
structure WholeSafe (source : Value) (c : Counters) : Prop where
  prompted : NoOverflow c.input [c.creation, c.read]
  added : NoOverflow c.input [c.output, c.creation, c.read]
  prompt : i64Field (chatUsage source) "prompt_tokens" = clampI64 (c.input + c.creation + c.read)
  total : i64Field (chatUsage source) "total_tokens" =
    clampI64 (c.input + c.output + c.creation + c.read)

/-- The state of a stream after the event that opens it, which may state a usage. -/
def openedState (parsed : Value) (state : AnthropicState) (start : Option Value) : AnthropicState :=
  start.elim { state with usage := none } (startedState parsed · state)

/-- Anthropic to Chat, for the usage that a stream opens with and the one that closes it. -/
structure StreamSafe (parsed : Value) (state : AnthropicState) (start : Option Value) (delta : Value)
    (c : Counters) : Prop where
  prompted : NoOverflow c.input [c.read, c.creation]
  added : NoOverflow (promptTokens (start.getD .null)) [(counters delta).output]
  prompt : i64Field (streamedUsage (openedState parsed state start) delta) "prompt_tokens" =
    clampI64 (c.input + c.creation + c.read)
  total : i64Field (streamedUsage (openedState parsed state start) delta) "total_tokens" =
    clampI64 (c.input + c.creation + c.read + (counters delta).output)

/-! The sums that fit. -/

theorem wrap_eq {z : Int} (h : InI64 z) : wrap z = z := by
  unfold InI64 i64Min i64Max at h
  exact Int.bmod_eq_of_le (by omega) (by omega)

theorem clampI64_eq {z : Int} (h : InI64 z) : clampI64 z = z := by
  rw [clampI64, min_eq_right h.2, max_eq_right h.1]

theorem noOverflow_cons {s z : Int} {zs : List Int} :
    NoOverflow s (z :: zs) ↔ InI64 (s + z) ∧ NoOverflow (s + z) zs := by
  rw [NoOverflow]
  refine and_congr_right fun h => ?_
  rw [wrap_eq h]

theorem i64Field_member {object : Members} {key : String} {z : Int}
    (h : object.lookup key = some (ofI64 z)) (hz : InI64 z) : i64Field (.obj object) key = z := by
  simp [i64Field, tokenValue, Value.get?, h, asI64?_ofI64 hz]

theorem cacheCounter_range {v : Option Value} {n : Int} (h : cacheCounter v = some n) :
    0 ≤ n ∧ n ≤ i64Max := by
  unfold cacheCounter at h
  obtain ⟨q, hq, rfl⟩ := Option.map_eq_some_iff.mp h
  have hpos : 0 ≤ q := by simpa using (Option.filter_eq_some_iff.mp hq).2
  unfold toI64
  rw [if_pos hpos]
  have hfloor : 0 ≤ q.floor := Rat.le_floor_iff.mpr (by simpa using hpos)
  unfold i64Min i64Max
  omega

theorem toI64_range (q : ℚ) : InI64 (toI64 q) := by
  unfold toI64 InI64 i64Min i64Max
  omega

theorem i64Field_range (v : Value) (key : String) : InI64 (i64Field v key) := by
  have hone (field : Value) :
      ∀ z ∈ (asI64? field).or ((asF64? field).map toI64), InI64 z := by
    intro z hz
    rcases Option.or_eq_some_iff.mp hz with h | ⟨-, h⟩
    · unfold asI64? at h
      split at h
      · split at h
        · next n hle =>
          cases h
          unfold InI64 i64Min
          omega
        · cases h
      · next m =>
        cases h
        have := m.isLt
        unfold InI64 i64Min i64Max
        omega
      · cases h
    · obtain ⟨q, -, rfl⟩ := Option.map_eq_some_iff.mp h
      exact toI64_range q
  rw [i64Field, tokenValue]
  cases hfield : (v.get? key).bind fun field => (asI64? field).or ((asF64? field).map toI64) with
  | none => exact ⟨by decide, by decide⟩
  | some z =>
    obtain ⟨field, -, hz⟩ := Option.bind_eq_some_iff.mp hfield
    exact hone field z hz

variable (usage : Option Value) (parsed : Value)

theorem cachedTokens_range :
    (0 ≤ (cachedTokens usage).1 ∧ (cachedTokens usage).1 ≤ i64Max) ∧
      0 ≤ (cachedTokens usage).2 ∧ (cachedTokens usage).2 ≤ i64Max := by
  have hor {a b : Option Value} :
      0 ≤ ((cacheCounter a).or (cacheCounter b)).getD 0 ∧
        ((cacheCounter a).or (cacheCounter b)).getD 0 ≤ i64Max := by
    cases hsome : (cacheCounter a).or (cacheCounter b) with
    | none => exact ⟨Int.le_refl 0, by decide⟩
    | some n =>
      rcases Option.or_eq_some_iff.mp hsome with h | ⟨-, h⟩
      · exact cacheCounter_range h
      · exact cacheCounter_range h
  exact ⟨hor, hor⟩

theorem messagesSafe_iff :
    MessagesSafe usage ↔
      (cachedTokens usage).1 + (cachedTokens usage).2 ≤ i64Max ∧
        i64Min ≤ chatCount usage "prompt_tokens" -
          ((cachedTokens usage).1 + (cachedTokens usage).2) := by
  have hcache := cachedTokens_range usage
  have hprompt := i64Field_range (usage.getD .null) "prompt_tokens"
  have hinput : i64Field (messagesUsage usage) "input_tokens" =
      max (wrap (chatCount usage "prompt_tokens" -
        wrap ((cachedTokens usage).1 + (cachedTokens usage).2))) 0 := by
    have hrange := wrap_range (chatCount usage "prompt_tokens" -
      wrap ((cachedTokens usage).1 + (cachedTokens usage).2))
    refine i64Field_member rfl ⟨?_, ?_⟩
    · exact Int.le_trans hrange.1 (le_max_left _ _)
    · exact max_le hrange.2 (by decide)
  constructor
  · rintro ⟨hsum, hdiff, -⟩
    rw [noOverflow_cons] at hsum
    rw [wrap_eq hsum.1] at hdiff
    exact ⟨hsum.1.2, hdiff.1⟩
  · rintro ⟨hsum, hdiff⟩
    have hcached : InI64 ((cachedTokens usage).1 + (cachedTokens usage).2) := by
      unfold InI64 i64Min
      omega
    have huncached : InI64 (chatCount usage "prompt_tokens" -
        ((cachedTokens usage).1 + (cachedTokens usage).2)) := by
      refine ⟨hdiff, Int.le_trans (Int.sub_le_self _ ?_) hprompt.2⟩
      omega
    refine ⟨noOverflow_cons.mpr ⟨hcached, trivial⟩, by rwa [wrap_eq hcached], ?_⟩
    rw [hinput, wrap_eq hcached, wrap_eq huncached, clampI64_eq]
    exact ⟨Int.le_trans huncached.1 (le_max_left _ _), max_le huncached.2 (by decide)⟩

theorem responsesSafe_iff :
    ResponsesSafe usage ↔
      (chatCount usage "total_tokens" = 0 →
        InI64 (chatCount usage "prompt_tokens" + chatCount usage "completion_tokens")) := by
  constructor
  · intro h hzero
    exact (noOverflow_cons.mp (h.added hzero)).1
  · intro h
    refine ⟨fun hzero => noOverflow_cons.mpr ⟨h hzero, trivial⟩, fun hzero => ?_⟩
    have htotal : i64Field (responsesUsage usage) "total_tokens" =
        wrap (chatCount usage "prompt_tokens" + chatCount usage "completion_tokens") := by
      have hzero' : i64Field (usage.getD .null) "total_tokens" = 0 := hzero
      unfold responsesUsage
      dsimp only
      rw [if_pos hzero']
      exact i64Field_member rfl (wrap_range _)
    rw [htotal, wrap_eq (h hzero), clampI64_eq (h hzero)]

theorem lookup_echoCache {source : Value} {usage : Members} {key : String}
    (hread : key ≠ "cache_read_input_tokens") (hcreation : key ≠ "cache_creation_input_tokens") :
    (echoCache source usage).lookup key = usage.lookup key := by
  obtain ⟨read, creation, hecho⟩ := echoCache_eq source
  rw [hecho]
  cases read <;> cases creation <;> simp [lookup_setMember, hread, hcreation]

theorem wholeSafe_iff (source : Value) :
    let c := counters source
    WholeSafe source c ↔ InI64 (c.input + c.creation) ∧ InI64 (c.input + c.creation + c.read) ∧
      InI64 (c.input + c.output) ∧ InI64 (c.input + c.output + c.creation) ∧
      InI64 (c.input + c.output + c.creation + c.read) := by
  intro c
  have hprompt : i64Field (chatUsage source) "prompt_tokens" = wrap (c.input + c.creation + c.read) :=
    i64Field_member (lookup_echoCache (by decide) (by decide)) (wrap_range _)
  have htotal : i64Field (chatUsage source) "total_tokens" =
      wrap (c.input + c.output + c.creation + c.read) :=
    i64Field_member (lookup_echoCache (by decide) (by decide)) (wrap_range _)
  constructor
  · rintro ⟨hprompted, hadded, -, -⟩
    simp only [noOverflow_cons] at hprompted hadded
    exact ⟨hprompted.1, hprompted.2.1, hadded.1, hadded.2.1, hadded.2.2.1⟩
  · rintro ⟨hcreated, hread, houtput, hboth, hall⟩
    refine ⟨?_, ?_, ?_, ?_⟩
    · exact noOverflow_cons.mpr ⟨hcreated, noOverflow_cons.mpr ⟨hread, trivial⟩⟩
    · exact noOverflow_cons.mpr ⟨houtput, noOverflow_cons.mpr ⟨hboth,
        noOverflow_cons.mpr ⟨hall, trivial⟩⟩⟩
    · rw [hprompt, wrap_eq hread, clampI64_eq hread]
    · rw [htotal, wrap_eq hall, clampI64_eq hall]

theorem i64Field_streamed (state : AnthropicState) (start : Option Value) (delta : Value) :
    i64Field (streamedUsage (openedState parsed state start) delta) "prompt_tokens" =
        promptTokens (start.getD .null) ∧
      i64Field (streamedUsage (openedState parsed state start) delta) "total_tokens" =
        wrap (promptTokens (start.getD .null) + (counters delta).output) := by
  have hadded {state : AnthropicState}
      (hprompt : (state.usage.map fun usage => i64Field usage "prompt_tokens").getD 0 =
        promptTokens (start.getD .null)) :
      i64Field (streamedUsage state delta) "total_tokens" =
        wrap (promptTokens (start.getD .null) + (counters delta).output) := by
    unfold streamedUsage
    dsimp only
    rw [hprompt]
    exact i64Field_member (by rw [lookup_setMember, if_pos rfl]; rfl) (wrap_range _)
  cases start with
  | none => exact ⟨rfl, hadded rfl⟩
  | some usage =>
    refine ⟨?_, hadded (i64Field_echoCache_prompt usage (wrap_range _))⟩
    unfold streamedUsage
    refine i64Field_member ?_ (wrap_range _)
    rw [lookup_setMember, if_neg (by decide)]
    obtain ⟨read, creation, hecho⟩ := echoCache_eq usage
    simp only [openedState, startedState, Option.elim_some, Option.bind_some, asObj?, Option.getD_some,
      hecho]
    cases read <;> cases creation <;> rfl

theorem streamSafe_iff (state : AnthropicState) (start : Option Value) (delta : Value) :
    let c := counters (start.getD .null)
    StreamSafe parsed state start delta c ↔
      InI64 (c.input + c.read) ∧ InI64 (c.input + c.creation + c.read) ∧
        InI64 (c.input + c.creation + c.read + (counters delta).output) := by
  intro c
  have hread : c.input + c.read + c.creation = c.input + c.creation + c.read := by omega
  obtain ⟨hprompt, htotal⟩ := i64Field_streamed parsed state start delta
  have hsum : promptTokens (start.getD .null) = wrap (c.input + c.creation + c.read) := rfl
  constructor
  · rintro ⟨hprompted, hadded, -, -⟩
    simp only [noOverflow_cons, hread] at hprompted hadded
    rw [hsum, wrap_eq hprompted.2.1] at hadded
    exact ⟨hprompted.1, hprompted.2.1, hadded.1⟩
  · rintro ⟨hfirst, hall, htotalled⟩
    rw [hsum, wrap_eq hall] at hprompt htotal
    refine ⟨?_, ?_, ?_, ?_⟩
    · exact noOverflow_cons.mpr ⟨hfirst, noOverflow_cons.mpr ⟨hread ▸ hall, trivial⟩⟩
    · rw [hsum, wrap_eq hall]
      exact noOverflow_cons.mpr ⟨htotalled, trivial⟩
    · rw [hprompt, clampI64_eq hall]
    · rw [htotal, wrap_eq htotalled, clampI64_eq htotalled]

/-- The conversions add without overflow and show the sums exactly when the sums that they go
through are 64-bit integers. -/
theorem conversions_safe_iff (chat : Option Value) (whole : Value) (parsed : Value)
    (state : AnthropicState) (start : Option Value) (delta : Value) :
    let cached := (cachedTokens chat).1 + (cachedTokens chat).2
    let w := counters whole
    let s := counters (start.getD .null)
    (MessagesSafe chat ∧ ResponsesSafe chat ∧ WholeSafe whole w ∧
        StreamSafe parsed state start delta s) ↔
      (cached ≤ i64Max ∧ i64Min ≤ chatCount chat "prompt_tokens" - cached) ∧
      (chatCount chat "total_tokens" = 0 →
        InI64 (chatCount chat "prompt_tokens" + chatCount chat "completion_tokens")) ∧
      (InI64 (w.input + w.creation) ∧ InI64 (w.input + w.creation + w.read) ∧
        InI64 (w.input + w.output) ∧ InI64 (w.input + w.output + w.creation) ∧
        InI64 (w.input + w.output + w.creation + w.read)) ∧
      InI64 (s.input + s.read) ∧ InI64 (s.input + s.creation + s.read) ∧
        InI64 (s.input + s.creation + s.read + (counters delta).output) := by
  intro cached w s
  exact and_congr (messagesSafe_iff chat) (and_congr (responsesSafe_iff chat)
    (and_congr (wholeSafe_iff whole) (streamSafe_iff parsed state start delta)))

/-- One more token than a 64-bit integer counts, and the total is the least of them. -/
theorem whole_total_wraps :
    let usage : Value := .obj [("input_tokens", ofI64 i64Max), ("output_tokens", ofI64 1)]
    i64Field (chatUsage usage) "total_tokens" = i64Min ∧ ¬ WholeSafe usage (counters usage) := by
  refine ⟨by decide +kernel, fun h => ?_⟩
  have hfits := ((wholeSafe_iff _).mp h).2.2.1
  have hover : ¬ InI64 (i64Max + 1) := by
    unfold InI64
    omega
  exact hover hfits

end AciGateway.Transform
