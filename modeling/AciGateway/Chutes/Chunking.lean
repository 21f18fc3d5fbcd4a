import AciGateway.Chutes.Stream

/-! How the chunks of a body show in what the decrypting stream yields. -/
namespace AciGateway.Chutes

open Octets Json Lines List ChutesE2eeDecryptingStream

/-- An item of the stream, or the place of its error. -/
def StreamPoll.yields : StreamPoll → List (Option Bytes)
  | .item bytes => [some bytes]
  | .error _ => [none]
  | _ => []

section

variable (S : Suite) (round : Bytes → Option FloatText) (secret : S.Secret)

/-- What lines add, in order, and then the place of the line that fails. -/
def inOrder (r : List Output × Option (Option Bytes)) : List (Option Bytes) :=
  r.1.map (some ·.bytes) ++ if r.2.isNone then [none] else []

/-- What the stream yields from the chunks left: the error of a chunk stands before the items that
the chunk adds. -/
def yieldsFrom (key : Option Bytes) (buffer : Bytes) : List Bytes → List (Option Bytes)
  | [] => inOrder (absorb S round secret key [buffer])
  | c :: cs =>
    let r := absorb S round secret key (endedLines (buffer ++ c))
    match r.2 with
    | none => none :: r.1.map (some ·.bytes)
    | some key => r.1.map (some ·.bytes) ++ yieldsFrom key (rest (buffer ++ c)) cs

/-- No chunk ends a line that adds an item and, after it, the first line that fails. -/
def Apart (key : Option Bytes) (buffer : Bytes) : List Bytes → Prop
  | [] => True
  | c :: cs =>
    let r := absorb S round secret key (endedLines (buffer ++ c))
    match r.2 with
    | none => r.1 = []
    | some key => Apart key (rest (buffer ++ c)) cs

end

variable {S : Suite} {round : Bytes → Option FloatText} {secret : S.Secret}
  {s : ChutesE2eeDecryptingStream} {key : Option Bytes} {buffer : Bytes} {cs : List Bytes}
  {body : List BodyPoll} {zs : List (Option Bytes)}

theorem allLines_continue (a b : Bytes) :
    allLines (a ++ b) = endedLines a ++ allLines (rest a ++ b) := by
  rw [allLines, endedLines_continue, rest_continue, append_assoc]
  rfl

theorem allLines_rest (b : Bytes) : allLines (rest b) = [rest b] := by
  have h := allLines_continue b []
  rw [append_nil, append_nil] at h
  exact (append_cancel_left h).symm

theorem yieldsFrom_eq_iff (hb : allLines buffer = [buffer]) :
    yieldsFrom S round secret key buffer cs =
      inOrder (absorb S round secret key (allLines (buffer ++ cs.flatten))) ↔
    Apart S round secret key buffer cs := by
  induction cs generalizing key buffer with
  | nil => simp [yieldsFrom, Apart, hb]
  | cons c cs ih =>
    rw [flatten_cons, ← append_assoc, allLines_continue, absorb_append, yieldsFrom, Apart]
    obtain ⟨outs, after⟩ := absorb S round secret key (endedLines (buffer ++ c))
    cases after with
    | none => cases outs <;> simp [inOrder]
    | some key' =>
      simp only [inOrder, map_append, append_assoc, append_cancel_left_eq]
      exact ih (allLines_rest _)

/-- What is left to yield. -/
inductive Left (S : Suite) (round : Bytes → Option FloatText) (secret : S.Secret)
    (s : ChutesE2eeDecryptingStream) : List BodyPoll → List (Option Bytes) → Prop
  | live (cs : List Bytes) (hs : s.finished = false) :
      Left S round secret s (cs.map .chunk ++ [.done])
        (s.pending.map some ++ yieldsFrom S round secret s.streamKey s.buffer cs)
  | ended (body : List BodyPoll) (hs : s.finished = true) :
      Left S round secret s body (s.pending.map some)

/-- A poll yields the first of what is left. -/
def Takes (S : Suite) (round : Bytes → Option FloatText) (secret : S.Secret)
    (r : StreamPoll × ChutesE2eeDecryptingStream × List BodyPoll) (zs : List (Option Bytes)) :
    Prop :=
  r.1.yields = zs.head?.toList ∧ Left S round secret r.2.1 r.2.2 zs.tail

theorem takes_over {p : StreamPoll} (hp : s.pending.map some = zs.tail)
    (hy : p.yields = zs.head?.toList) :
    Takes S round secret (p, { s with finished := true }, body) zs :=
  ⟨hy, hp ▸ .ended (s := { s with finished := true }) body rfl⟩

theorem takes_end (hp : s.pending = []) : Takes S round secret (s.readBody S round secret [.done])
    (inOrder (absorb S round secret s.streamKey [s.buffer])) := by
  rw [readBody, inOrder, absorb]
  by_cases hb : s.buffer = []
  · simp only [hb, isEmpty_nil, if_true, hp]
    exact takes_over (s := { s with buffer := [], pending := [] }) rfl rfl
  · simp only [List.isEmpty_iff, hb, processSseLine]
    cases readSseLine S round secret s.streamKey s.buffer with
    | error e => exact takes_over (s := { s with buffer := [] }) (by simp [hp]) rfl
    | ok r =>
      obtain ⟨key, o⟩ := r
      cases o with
      | none =>
        simp only [hp]
        exact takes_over (s := { s with buffer := [], streamKey := key, pending := [] }) rfl rfl
      | some o =>
        simp only [hp]
        exact takes_over (s := { s with buffer := [], streamKey := key, pending := [] }) rfl rfl

theorem takes_readBody (hs : s.finished = false) (hp : s.pending = []) :
    Takes S round secret (s.readBody S round secret (cs.map .chunk ++ [.done]))
      (yieldsFrom S round secret s.streamKey s.buffer cs) := by
  induction cs generalizing s with
  | nil => exact takes_end hp
  | cons c cs ih =>
    rw [map_cons, cons_append, readBody, yieldsFrom]
    obtain ⟨r, s', hr⟩ : ∃ r s', processBuffer S round secret
      { s with buffer := s.buffer ++ c } = (r, s') := ⟨_, _, rfl⟩
    obtain ⟨hpending, hfinished, hok, herror⟩ :=
      processLines_spec (lines_ne_nil _) hr
    change s'.pending = s.pending ++
      (absorb S round secret s.streamKey (endedLines (s.buffer ++ c))).1.map Output.bytes at hpending
    rw [hp, nil_append] at hpending
    rw [hr]
    cases r with
    | error e =>
      have hnone : (absorb S round secret s.streamKey (endedLines (s.buffer ++ c))).2 = none :=
        herror (by simp)
      simp only [hnone]
      exact takes_over (by simp [hpending]) rfl
    | ok u =>
      obtain ⟨hbuffer, hkey⟩ := hok rfl
      have hkey : (absorb S round secret s.streamKey (endedLines (s.buffer ++ c))).2 =
        some s'.streamKey := hkey
      have hrest : rest (s.buffer ++ c) = s'.buffer :=
        Option.some.inj ((getLast?_eq_some_getLast _).symm.trans hbuffer)
      have houts : (absorb S round secret s.streamKey (endedLines (s.buffer ++ c))).1.map
          (some ·.bytes) = s'.pending.map some := by
        rw [hpending, map_map]
        rfl
      simp only [hkey, hrest, houts]
      cases hp' : s'.pending with
      | nil => exact ih (hfinished.trans hs) hp'
      | cons y ys => exact ⟨rfl, .live (s := { s' with pending := ys }) cs (hfinished.trans hs)⟩

theorem takes_pollNext (h : Left S round secret s body zs) :
    Takes S round secret (s.pollNext S round secret body) zs := by
  unfold pollNext
  cases hp : s.pending with
  | cons y ys =>
    cases h with
    | live cs hs =>
      rw [hp]
      exact ⟨rfl, .live cs hs⟩
    | ended body hs =>
      rw [hp]
      exact ⟨rfl, .ended body hs⟩
  | nil =>
    cases h with
    | live cs hs =>
      rw [hp]
      simp only [hs]
      exact takes_readBody hs hp
    | ended body hs =>
      simp only [hs, hp]
      refine ⟨rfl, ?_⟩
      have hover : Left S round secret s body _ := .ended body hs
      rwa [hp] at hover

theorem yields_polls (n : Nat) (h : Left S round secret s body zs) :
    (s.polls S round secret body n).flatMap StreamPoll.yields = zs.take n := by
  induction n generalizing s body zs with
  | zero => simp [polls]
  | succ n ih =>
    obtain ⟨hfirst, hleft⟩ := takes_pollNext h
    rw [polls, flatMap_cons, hfirst, ih hleft]
    cases zs <;> simp

/-- The stream yields what the lines of the whole body add, in their order and up to the first
line that fails, exactly if no chunk ends both a line that adds an item and, after it, the first
line that fails. -/
theorem stream_in_order_iff (S : Suite) (round : Bytes → Option FloatText) (secret : S.Secret)
    (cs : List Bytes) :
    (∀ n, (ChutesE2eeDecryptingStream.new.polls S round secret (cs.map .chunk ++ [.done]) n).flatMap
        StreamPoll.yields =
      (inOrder (absorb S round secret none (allLines cs.flatten))).take n) ↔
    Apart S round secret none [] cs := by
  have hpolls (n : Nat) := yields_polls n (@Left.live S round secret .new cs rfl)
  rw [← yieldsFrom_eq_iff rfl]
  constructor
  · intro h
    apply ext_getElem?
    intro n
    have hn := (hpolls (n + 1)).symm.trans (h (n + 1))
    have := congrArg (·[n]?) hn
    simpa [new] using this
  · intro h n
    rw [hpolls]
    exact congrArg (take n) h

/-- A chunk with a `[DONE]` and a line that fails: the error comes first. -/
theorem error_before_item :
    (ChutesE2eeDecryptingStream.new.polls sealedOnce (fun _ => none) ()
      [.chunk (utf8 "data: [DONE]\ndata: x\n"), .done] 3).flatMap StreamPoll.yields =
        [none, some (utf8 "data: [DONE]\n\n")] ∧
    (ChutesE2eeDecryptingStream.new.polls sealedOnce (fun _ => none) ()
      [.chunk (utf8 "data: [DONE]\n"), .chunk (utf8 "data: x\n"), .done] 3).flatMap
        StreamPoll.yields = [some (utf8 "data: [DONE]\n\n"), none] := by
  decide +kernel

end AciGateway.Chutes
