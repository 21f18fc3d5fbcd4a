import AciGateway.Chutes.Crypto
import AciGateway.Lib.JsonDocument
import AciGateway.Lib.Lines
import AciGateway.Lib.Text

/-! The decrypting stream of a Chutes response. Lines are handled as they arrive; what they
yield waits in a queue for the polls of the consumer. -/
namespace AciGateway.Chutes

open Octets Json Lines Text Results List

/-- What one line adds to the stream. -/
inductive Output where
  | done
  | chunk (text : String) (plaintext : Bytes)
  | usage (raw : String)
  | error (detail : Value)

def Output.bytes : Output → Bytes
  | .done => utf8 "data: [DONE]\n\n"
  | .chunk _ plaintext => plaintext ++ utf8 "\n\n"
  | .usage raw => utf8 "data: " ++ utf8 raw ++ utf8 "\n\n"
  | .error detail => utf8 "data: " ++ print (.obj [("error", detail)]) ++ utf8 "\n\n"

structure ChutesE2eeDecryptingStream where
  streamKey : Option Bytes
  buffer : Bytes
  pending : List Bytes
  finished : Bool

def ChutesE2eeDecryptingStream.new : ChutesE2eeDecryptingStream := ⟨none, [], [], false⟩

/-- What a poll of the response body gives. -/
inductive BodyPoll where
  | pending
  | chunk (bytes : Bytes)
  | error (e : UpstreamError)
  | done

/-- What a poll of the stream gives. -/
inductive StreamPoll where
  | pending
  | item (bytes : Bytes)
  | error (e : UpstreamError)
  | done

/-- The text of a data line, trimmed; any other line has none. -/
def lineText (line : Bytes) : Except UpstreamError String :=
  if (utf8 "data: ").isPrefixOf line then
    (okOr (ofUtf8? (line.drop 6)) (.transport "Chutes E2EE stream line is not UTF-8")).map trim
  else .ok ""

def stripCr (line : Bytes) : Bytes := if line.getLast? = some 13 then line.dropLast else line

section

variable (S : Suite) (round : Bytes → Option FloatText) (secret : S.Secret)

/-- The key after an event and what the event adds. -/
def readEvent (streamKey : Option Bytes) (raw : String) (event : Value) :
    Except UpstreamError (Option Bytes × Option Output) :=
  match (event.get? "e2e_init").bind Value.asStr? with
  | some init => (decryptChutesStreamInit S secret init).map fun key => (some key, none)
  | none =>
    match (event.get? "e2e").bind Value.asStr? with
    | some chunk => do
      let key ← okOr streamKey
        (.transport "received Chutes E2EE stream chunk before e2e_init")
      let plaintext ← decryptChutesStreamChunk S key chunk
      pure (streamKey, some (.chunk chunk plaintext))
    | none =>
      if (event.get? "usage").isSome then .ok (streamKey, some (.usage raw))
      else .ok (streamKey, (event.get? "e2e_error").map .error)

def readSseLine (streamKey : Option Bytes) (line : Bytes) :
    Except UpstreamError (Option Bytes × Option Output) := do
  let raw ← lineText line
  if raw = "" then pure (streamKey, none)
  else if raw = "[DONE]" then pure (streamKey, some .done)
  else do
    let event ← okOr (fromSlice round (utf8 raw)) (.transport "invalid Chutes E2EE SSE event")
    readEvent S secret streamKey raw event

namespace ChutesE2eeDecryptingStream

def processSseLine (s : ChutesE2eeDecryptingStream) (line : Bytes) :
    Except UpstreamError Unit × ChutesE2eeDecryptingStream :=
  match readSseLine S round secret s.streamKey line with
  | .error e => (.error e, s)
  | .ok (key, output) =>
    (.ok (), { s with streamKey := key, pending := s.pending ++ output.toList.map Output.bytes })

/-- The lines of the buffer, the last of which has not ended. A line that fails leaves those
after it in the buffer. -/
def processLines (s : ChutesE2eeDecryptingStream) :
    List Bytes → Except UpstreamError Unit × ChutesE2eeDecryptingStream
  | [] => (.ok (), s)
  | [tail] => (.ok (), { s with buffer := tail })
  | line :: rest =>
    match s.processSseLine S round secret (stripCr line) with
    | (.error e, s) => (.error e, { s with buffer := [10].intercalate rest })
    | (.ok (), s) => s.processLines rest

def processBuffer (s : ChutesE2eeDecryptingStream) :
    Except UpstreamError Unit × ChutesE2eeDecryptingStream :=
  s.processLines S round secret (lines s.buffer)

/-- The loop of a poll over what the body gives. When it has no more to give for now, the poll
is pending. -/
def readBody (s : ChutesE2eeDecryptingStream) :
    List BodyPoll → StreamPoll × ChutesE2eeDecryptingStream × List BodyPoll
  | [] => (.pending, s, [])
  | .pending :: body => (.pending, s, body)
  | .chunk bytes :: body =>
    match processBuffer S round secret { s with buffer := s.buffer ++ bytes } with
    | (.error e, s) => (.error e, { s with finished := true }, body)
    | (.ok (), s) =>
      match s.pending with
      | y :: ys => (.item y, { s with pending := ys }, body)
      | [] => s.readBody body
  | .error e :: body => (.error e, { s with finished := true }, body)
  | .done :: body =>
    match (if s.buffer.isEmpty then (.ok (), s)
      else processSseLine S round secret { s with buffer := [] } s.buffer) with
    | (.error e, s) => (.error e, { s with finished := true }, body)
    | (.ok (), s) =>
      match s.pending with
      | y :: ys => (.item y, { s with pending := ys, finished := true }, body)
      | [] => (.done, { s with finished := true }, body)

def pollNext (s : ChutesE2eeDecryptingStream) (body : List BodyPoll) :
    StreamPoll × ChutesE2eeDecryptingStream × List BodyPoll :=
  match s.pending with
  | y :: ys => (.item y, { s with pending := ys }, body)
  | [] => if s.finished then (.done, s, body) else readBody S round secret s body

/-- The answers to `n` polls. -/
def polls (s : ChutesE2eeDecryptingStream) (body : List BodyPoll) : Nat → List StreamPoll
  | 0 => []
  | n + 1 =>
    let r := s.pollNext S round secret body
    r.1 :: polls r.2.1 r.2.2 n

end ChutesE2eeDecryptingStream

/-- What the lines add, up to the first that fails, and the key after them if none does. -/
def absorb (key : Option Bytes) : List Bytes → List Output × Option (Option Bytes)
  | [] => ([], some key)
  | line :: rest =>
    match readSseLine S round secret key line with
    | .error _ => ([], none)
    | .ok (key, output) =>
      let r := absorb key rest
      (output.toList ++ r.1, r.2)

end

/-! The queue follows the lines: what was yielded and what still waits is what the lines seen
so far add. -/

/-- The bytes the body gives before it fails or ends. -/
def received : List BodyPoll → Bytes
  | .chunk bytes :: body => bytes ++ received body
  | .pending :: body => received body
  | _ => []

/-- The lines of a text that have ended, without their carriage return. -/
def endedLines (b : Bytes) : List Bytes := (ended b).map stripCr

/-- All lines of a text; the last one may lack its end. -/
def allLines (b : Bytes) : List Bytes := endedLines b ++ [rest b]

def StreamPoll.items : StreamPoll → List Bytes
  | .item bytes => [bytes]
  | _ => []

variable {S : Suite} {round : Bytes → Option FloatText} {secret : S.Secret}
  {s s' : ChutesE2eeDecryptingStream} {key key' : Option Bytes} {seen total line : Bytes}
  {ys : List Bytes} {body body' : List BodyPoll} {ls ls' : List Bytes} {o : Option Output}
  {p : StreamPoll} {r : Except UpstreamError Unit}

theorem endedLines_continue (a b : Bytes) :
    endedLines (a ++ b) = endedLines a ++ endedLines (rest a ++ b) := by
  rw [endedLines, ended_continue, map_append]
  rfl

theorem endedLines_prefix (a b : Bytes) : endedLines a <+: allLines (a ++ b) := by
  rw [allLines, endedLines_continue, append_assoc]
  exact prefix_append _ _

theorem absorb_append (ls ls' : List Bytes) : absorb S round secret key (ls ++ ls') =
    match (absorb S round secret key ls).2 with
    | none => absorb S round secret key ls
    | some key' => ((absorb S round secret key ls).1 ++ (absorb S round secret key' ls').1,
        (absorb S round secret key' ls').2) := by
  induction ls generalizing key with
  | nil => rfl
  | cons line ls ih =>
    rw [cons_append, absorb, absorb]
    cases h : readSseLine S round secret key line with
    | error e => rfl
    | ok r =>
      dsimp only
      rw [ih]
      split <;> rename_i hk <;> simp [hk]

theorem prefix_absorb (h : ls <+: ls') :
    (absorb S round secret key ls).1 <+: (absorb S round secret key ls').1 := by
  obtain ⟨rest, rfl⟩ := h
  rw [absorb_append]
  split
  · exact prefix_refl _
  · exact prefix_append _ _

namespace ChutesE2eeDecryptingStream

theorem processLines_spec (hne : ls ≠ []) (h : s.processLines S round secret ls = (r, s')) :
    s'.pending = s.pending ++
      (absorb S round secret s.streamKey (ls.dropLast.map stripCr)).1.map Output.bytes ∧
    s'.finished = s.finished ∧
    (r = .ok () → ls.getLast? = some s'.buffer ∧
      (absorb S round secret s.streamKey (ls.dropLast.map stripCr)).2 = some s'.streamKey) ∧
    (r ≠ .ok () → (absorb S round secret s.streamKey (ls.dropLast.map stripCr)).2 = none) := by
  induction ls generalizing s with
  | nil => exact absurd rfl hne
  | cons line ls ih =>
    cases ls with
    | nil =>
      cases h
      simp [absorb]
    | cons next ls =>
      simp only [processLines, processSseLine] at h
      simp only [dropLast_cons_cons, map_cons, absorb]
      cases hl : readSseLine S round secret s.streamKey (stripCr line) with
      | error e =>
        rw [hl] at h
        cases h
        simp
      | ok out =>
        rw [hl] at h
        obtain ⟨hpending, hfinished, hok, herror⟩ := ih (by simp) h
        refine ⟨?_, hfinished, ?_, herror⟩
        · simpa using hpending
        · intro hr
          simpa using hok hr

end ChutesE2eeDecryptingStream

/-- While the stream runs: its key and buffer are those of the text seen, and the items yielded
with those that wait are what the ended lines add. -/
structure Live (S : Suite) (round : Bytes → Option FloatText) (secret : S.Secret)
    (s : ChutesE2eeDecryptingStream) (seen : Bytes) (ys : List Bytes) : Prop where
  key : (absorb S round secret none (endedLines seen)).2 = some s.streamKey
  queue : ys ++ s.pending = (absorb S round secret none (endedLines seen)).1.map Output.bytes
  buffer : s.buffer = rest seen

/-- What is known of the stream at any time, given all the text the body gives. -/
inductive Follows (S : Suite) (round : Bytes → Option FloatText) (secret : S.Secret) (total : Bytes)
    (s : ChutesE2eeDecryptingStream) (body : List BodyPoll) (ys : List Bytes) : Prop
  | live (seen : Bytes) (hs : s.finished = false) (hseen : seen ++ received body = total)
      (h : Live S round secret s seen ys)
  | closed (ls : List Bytes) (hs : s.finished = true) (hls : ls <+: allLines total)
      (h : ys ++ s.pending = (absorb S round secret none ls).1.map Output.bytes)

theorem live_new : Live S round secret .new [] [] := ⟨rfl, rfl, rfl⟩

/-- Lines after the text seen are read with the key of the stream. -/
theorem Live.absorb_append (h : Live S round secret s seen ys) (more : List Bytes) :
    absorb S round secret none (endedLines seen ++ more) =
      ((absorb S round secret none (endedLines seen)).1 ++ (absorb S round secret s.streamKey more).1,
        (absorb S round secret s.streamKey more).2) := by
  rw [Chutes.absorb_append, h.key]

open ChutesE2eeDecryptingStream

theorem Live.chunk {bytes : Bytes} (h : Live S round secret s seen ys)
    (hp : processBuffer S round secret
      { s with buffer := s.buffer ++ bytes } = (r, s')) :
    s'.finished = s.finished ∧
    ys ++ s'.pending =
      (absorb S round secret none (endedLines (seen ++ bytes))).1.map Output.bytes ∧
    (r = .ok () → Live S round secret s' (seen ++ bytes) ys) := by
  obtain ⟨hpending, hfinished, hok, -⟩ :=
    processLines_spec (lines_ne_nil _) hp
  have habsorb := h.absorb_append (endedLines (rest seen ++ bytes))
  rw [← endedLines_continue, ← h.buffer] at habsorb
  have hqueue : ys ++ s'.pending =
      (absorb S round secret none (endedLines (seen ++ bytes))).1.map Output.bytes := by
    rw [hpending, ← append_assoc, h.queue, habsorb, map_append]
    rfl
  refine ⟨hfinished, hqueue, fun hr => ?_⟩
  obtain ⟨hbuffer, hkey⟩ := hok hr
  refine ⟨?_, hqueue, ?_⟩
  · rw [habsorb]
    exact hkey
  · rw [rest_continue, ← h.buffer]
    exact (Option.some.inj ((getLast?_eq_some_getLast _).symm.trans hbuffer)).symm

/-- At the end of the body, what has not ended is read as a line. -/
theorem Live.last (h : Live S round secret s seen ys) (hp : (if s.buffer.isEmpty then (.ok (), s)
      else processSseLine S round secret { s with buffer := [] } s.buffer) =
        (r, s')) :
    ∃ ls, ls <+: allLines seen ∧
      ys ++ s'.pending = (absorb S round secret none ls).1.map Output.bytes := by
  have hended : endedLines seen <+: allLines seen := prefix_append _ _
  split at hp
  · cases hp
    exact ⟨_, hended, h.queue⟩
  · rw [processSseLine] at hp
    cases hl : readSseLine S round secret s.streamKey s.buffer with
    | error e =>
      simp only [hl] at hp
      cases hp
      exact ⟨_, hended, h.queue⟩
    | ok out =>
      simp only [hl] at hp
      cases hp
      refine ⟨_, prefix_refl _, ?_⟩
      rw [allLines, h.absorb_append, ← h.buffer, absorb, hl, ← append_assoc, h.queue]
      simp [absorb]

/-- The item a poll hands out leaves the queue. -/
theorem follows_pop {y : Bytes} {rest : List Bytes} (hp : s.pending = y :: rest)
    (h : Follows S round secret total s body ys) :
    Follows S round secret total { s with pending := rest } body (ys ++ [y]) := by
  cases h with
  | live seen hs hseen h =>
    refine .live seen hs hseen ⟨h.key, ?_, h.buffer⟩
    simpa [hp] using h.queue
  | closed ls hs hls h =>
    refine .closed ls hs hls ?_
    simpa [hp] using h

open StreamPoll

theorem follows_readBody (hs : s.finished = false) (hseen : seen ++ received body = total)
    (h : Live S round secret s seen ys) (hr : s.readBody S round secret body = (p, s', body')) :
    Follows S round secret total s' body' (ys ++ p.items) := by
  induction body generalizing s seen with
  | nil =>
    cases hr
    exact .live seen hs hseen (by simpa [items] using h)
  | cons b body ih =>
    cases b with
    | pending =>
      cases hr
      exact .live seen hs hseen (by simpa [items] using h)
    | chunk bytes =>
      rw [readBody] at hr
      rw [received, ← append_assoc] at hseen
      split at hr
      · rename_i hp
        obtain ⟨hf, hqueue, -⟩ := h.chunk hp
        cases hr
        refine .closed (endedLines (seen ++ bytes)) rfl (hseen ▸ endedLines_prefix _ _) ?_
        simpa [items] using hqueue
      · rename_i s₁ hp
        obtain ⟨hf, -, hlive⟩ := h.chunk hp
        have hlive := hlive rfl
        split at hr
        · rename_i hpending
          cases hr
          exact follows_pop hpending (.live _ (hf.trans hs) hseen hlive)
        · exact ih (hf.trans hs) hseen hlive hr
    | error e =>
      cases hr
      refine .closed (endedLines seen) rfl (hseen ▸ endedLines_prefix _ _) ?_
      simpa [items] using h.queue
    | done =>
      rw [readBody] at hr
      obtain rfl : seen = total := by simpa [received] using hseen
      split at hr
      · rename_i hp
        obtain ⟨ls, hls, hqueue⟩ := h.last hp
        cases hr
        exact .closed ls rfl hls (by simpa [items] using hqueue)
      · rename_i s₁ hp
        obtain ⟨ls, hls, hqueue⟩ := h.last hp
        have hover : Follows S round secret seen { s₁ with finished := true } body ys :=
          .closed ls rfl hls hqueue
        split at hr
        · rename_i hpending
          cases hr
          exact follows_pop (s := { s₁ with finished := true }) hpending hover
        · cases hr
          simpa [items] using hover

theorem follows_pollNext (h : Follows S round secret total s body ys)
    (hr : s.pollNext S round secret body = (p, s', body')) :
    Follows S round secret total s' body' (ys ++ p.items) := by
  unfold pollNext at hr
  split at hr
  · rename_i hpending
    cases hr
    exact follows_pop hpending h
  · cases h with
    | live seen hs hseen h =>
      rw [hs] at hr
      exact follows_readBody hs hseen h hr
    | closed ls hs hls h =>
      rw [if_pos hs] at hr
      cases hr
      exact .closed ls hs hls (by simpa [items] using h)

/-- The items of any number of polls are the first of those the lines delivered add. -/
theorem follows_polls (n : Nat) (h : Follows S round secret total s body ys) :
    ys ++ (s.polls S round secret body n).flatMap items <+:
      (absorb S round secret none (allLines total)).1.map Output.bytes := by
  induction n generalizing s body ys with
  | zero =>
    rw [polls, flatMap_nil, append_nil]
    cases h with
    | live seen hs hseen h =>
      have hls : endedLines seen <+: allLines total := hseen ▸ endedLines_prefix _ _
      exact (h.queue ▸ prefix_append _ _).trans ((prefix_absorb hls).map _)
    | closed ls hs hls h => exact (h ▸ prefix_append _ _).trans ((prefix_absorb hls).map _)
  | succ n ih =>
    rw [polls, flatMap_cons, ← append_assoc]
    exact ih (follows_pollNext h rfl)

theorem prefix_polls (body : List BodyPoll) (n : Nat) :
    (new.polls S round secret body n).flatMap items <+:
      (absorb S round secret none (allLines (received body))).1.map Output.bytes :=
  follows_polls n (.live [] rfl rfl live_new)

/-! What the lines add is genuine. -/

/-- The event a line carries, with its text. -/
def lineEvent (round : Bytes → Option FloatText) (line : Bytes) : Option (String × Value) :=
  match lineText line with
  | .ok raw =>
    if raw = "" ∨ raw = "[DONE]" then none else (fromSlice round (utf8 raw)).map fun e => (raw, e)
  | .error _ => none

/-- The sealed chunk a line carries. -/
def chunkLine (round : Bytes → Option FloatText) (line : Bytes) : Option String :=
  (lineEvent round line).bind fun e =>
    match (e.2.get? "e2e_init").bind Value.asStr? with
    | some _ => none
    | none => (e.2.get? "e2e").bind Value.asStr?

/-- A chunk with its text, of an output that is one. -/
def Output.chunk? : Output → Option (String × Bytes)
  | .chunk text plaintext => some (text, plaintext)
  | _ => none

/-- The key and the output of a line that is read. -/
inductive Reads (S : Suite) (round : Bytes → Option FloatText) (secret : S.Secret)
    (key : Option Bytes) (line : Bytes) : Option Bytes → Option Output → Prop
  | skip (hc : chunkLine round line = none) : Reads S round secret key line key none
  | done (ht : lineText line = .ok "[DONE]") (hc : chunkLine round line = none) :
      Reads S round secret key line key (some .done)
  | init {text : String} {k : Bytes} (hk : decryptChutesStreamInit S secret text = .ok k)
      (hc : chunkLine round line = none) : Reads S round secret key line (some k) none
  | chunk {text : String} {k plaintext : Bytes} (hk : key = some k)
      (hp : decryptChutesStreamChunk S k text = .ok plaintext)
      (hc : chunkLine round line = some text) :
      Reads S round secret key line key (some (.chunk text plaintext))
  | usage {raw : String} {event : Value} (he : lineEvent round line = some (raw, event))
      (hu : (event.get? "usage").isSome) (hc : chunkLine round line = none) :
      Reads S round secret key line key (some (.usage raw))
  | error {raw : String} {event detail : Value} (he : lineEvent round line = some (raw, event))
      (hd : event.get? "e2e_error" = some detail) (hc : chunkLine round line = none) :
      Reads S round secret key line key (some (.error detail))

theorem reads_event {raw : String} {event : Value} (he : lineEvent round line = some (raw, event))
    (h : readEvent S secret key raw event = .ok (key', o)) :
    Reads S round secret key line key' o := by
  have hchunk : chunkLine round line = match (event.get? "e2e_init").bind Value.asStr? with
      | some _ => none
      | none => (event.get? "e2e").bind Value.asStr? := by
    rw [chunkLine, he]
    rfl
  unfold readEvent at h
  split at h
  · rename_i hinit
    obtain ⟨k, hk, heq⟩ := map_eq_ok.mp h
    cases heq
    exact .init hk (by rw [hchunk, hinit])
  · rename_i hinit
    rw [hinit] at hchunk
    split at h
    · rename_i text htext
      simp only [bind_eq_ok, okOr_eq_ok, pure_eq_ok] at h
      obtain ⟨k, hk, plaintext, hp, heq⟩ := h
      cases heq
      exact .chunk hk hp (hchunk.trans htext)
    · rename_i hnone
      have hc : chunkLine round line = none := hchunk.trans hnone
      split at h
      · rename_i hu
        cases h
        exact .usage he hu hc
      · cases hd : event.get? "e2e_error" with
        | none =>
          rw [hd] at h
          cases h
          exact .skip hc
        | some detail =>
          rw [hd] at h
          cases h
          exact .error he hd hc

theorem reads_line (h : readSseLine S round secret key line = .ok (key', o)) :
    Reads S round secret key line key' o := by
  simp only [readSseLine, bind_eq_ok] at h
  obtain ⟨raw, ht, h⟩ := h
  by_cases hempty : raw = ""
  · rw [if_pos hempty] at h
    cases h
    exact .skip (by simp [chunkLine, lineEvent, ht, hempty])
  · rw [if_neg hempty] at h
    by_cases hdone : raw = "[DONE]"
    · rw [if_pos hdone] at h
      cases h
      subst hdone
      exact .done ht (by simp [chunkLine, lineEvent, ht])
    · rw [if_neg hdone] at h
      simp only [bind_eq_ok, okOr_eq_ok] at h
      obtain ⟨event, he, h⟩ := h
      exact reads_event (by simp [lineEvent, ht, hempty, hdone, he]) h

/-- Only the instance can seal for this request: whatever opens under a key that this request
agreed on is a chunk that was sent. -/
def Authentic (S : Suite) (secret : S.Secret) (sent : List (String × Bytes)) : Prop :=
  ∀ init key text plaintext, decryptChutesStreamInit S secret init = .ok key →
    decryptChutesStreamChunk S key text = .ok plaintext → (text, plaintext) ∈ sent

/-- An output is a sealed chunk that was opened, or what a delivered line says openly. -/
def Output.Genuine (round : Bytes → Option FloatText) (sent : List (String × Bytes))
    (delivered : List Bytes) : Output → Prop
  | .done => ∃ line ∈ delivered, lineText line = .ok "[DONE]"
  | .chunk text plaintext => (text, plaintext) ∈ sent
  | .usage raw => ∃ line ∈ delivered, ∃ event, lineEvent round line = some (raw, event) ∧
      (event.get? "usage").isSome
  | .error detail => ∃ line ∈ delivered, ∃ raw event, lineEvent round line = some (raw, event) ∧
      event.get? "e2e_error" = some detail

/-- A key comes from an `e2e_init` of this request. -/
def Agreed (S : Suite) (secret : S.Secret) (key : Option Bytes) : Prop :=
  ∀ k, key = some k → ∃ init, decryptChutesStreamInit S secret init = .ok k

section Genuine

variable {sent : List (String × Bytes)} {delivered : List Bytes}

theorem agreed_reads (hr : Reads S round secret key line key' o) (hk : Agreed S secret key) :
    Agreed S secret key' := by
  cases hr with
  | init h _ =>
    rintro k ⟨⟩
    exact ⟨_, h⟩
  | _ => exact hk

theorem genuine_reads (hideal : Authentic S secret sent) (hk : Agreed S secret key)
    (hl : line ∈ delivered) (hr : Reads S round secret key line key' o) :
    ∀ out ∈ o, out.Genuine round sent delivered := by
  rintro out ⟨⟩
  cases hr with
  | done ht _ => exact ⟨line, hl, ht⟩
  | chunk hkey hp _ =>
    obtain ⟨init, hinit⟩ := hk _ hkey
    exact hideal init _ _ _ hinit hp
  | usage he hu _ => exact ⟨line, hl, _, he, hu⟩
  | error he hd _ => exact ⟨line, hl, _, _, he, hd⟩

theorem chunk?_reads (hr : Reads S round secret key line key' o) :
    (o.toList.filterMap Output.chunk?).map Prod.fst = (chunkLine round line).toList := by
  cases hr <;> simp_all [Output.chunk?]

theorem genuine_absorb (hideal : Authentic S secret sent) (hk : Agreed S secret key)
    (hls : ls ⊆ delivered) :
    ∀ out ∈ (absorb S round secret key ls).1, out.Genuine round sent delivered := by
  induction ls generalizing key with
  | nil => simp [absorb]
  | cons line ls ih =>
    rw [cons_subset] at hls
    rw [absorb]
    cases h : readSseLine S round secret key line with
    | error e => simp
    | ok r =>
      have hr := reads_line h
      intro out hout
      rcases mem_append.mp hout with hout | hout
      · exact genuine_reads hideal hk hls.1 hr out (Option.mem_toList.mp hout)
      · exact ih (agreed_reads hr hk) hls.2 out hout

theorem chunks_absorb :
    ((absorb S round secret key ls).1.filterMap Output.chunk?).map Prod.fst <+:
      ls.filterMap (chunkLine round) := by
  induction ls generalizing key with
  | nil => simp [absorb]
  | cons line ls ih =>
    rw [absorb]
    cases h : readSseLine S round secret key line with
    | error e => simp
    | ok r =>
      have hsplit : (line :: ls).filterMap (chunkLine round) =
          (chunkLine round line).toList ++ ls.filterMap (chunkLine round) := by
        cases hc : chunkLine round line <;> simp [hc]
      rw [hsplit, filterMap_append, map_append, chunk?_reads (reads_line h)]
      exact (prefix_append_right_inj _).mpr ih

/-- A `[DONE]` among the outputs comes from such a line, after the chunks of the lines before. -/
theorem done_absorb {pre post : List Output}
    (h : (absorb S round secret key ls).1 = pre ++ .done :: post) :
    ∃ before line after, ls = before ++ line :: after ∧ lineText line = .ok "[DONE]" ∧
      (pre.filterMap Output.chunk?).map Prod.fst = before.filterMap (chunkLine round) := by
  induction ls generalizing key pre with
  | nil => simp [absorb] at h
  | cons line ls ih =>
    rw [absorb] at h
    cases hl : readSseLine S round secret key line with
    | error e => simp [hl] at h
    | ok r =>
      obtain ⟨key', o⟩ := r
      rw [hl] at h
      have hr := reads_line hl
      have hc := chunk?_reads hr
      -- The lines after this one, when its output is not the `[DONE]` in question.
      have later : ∀ {pre'}, pre = o.toList ++ pre' →
          (absorb S round secret key' ls).1 = pre' ++ .done :: post →
          ∃ before line' after, line :: ls = before ++ line' :: after ∧
            lineText line' = .ok "[DONE]" ∧
            (pre.filterMap Output.chunk?).map Prod.fst = before.filterMap (chunkLine round) := by
        intro pre' hpre hrest
        obtain ⟨before, line', after, rfl, ht, hbefore⟩ := ih hrest
        refine ⟨line :: before, line', after, rfl, ht, ?_⟩
        rw [hpre, filterMap_append, map_append, hc, hbefore]
        cases hcl : chunkLine round line <;> simp [hcl]
      cases o with
      | none => exact later rfl h
      | some out =>
        cases pre with
        | nil =>
          obtain ⟨rfl, -⟩ := cons.inj h
          cases hr with
          | done ht _ => exact ⟨[], line, ls, rfl, ht, rfl⟩
        | cons x pre =>
          obtain ⟨rfl, hrest⟩ := cons.inj h
          exact later rfl hrest

end Genuine

/-- A suite under which one chunk was sealed, and nothing else opens. -/
def sealedOnce : Suite where
  Secret := Unit
  responsePk _ := []
  validKey _ := true
  encapsulate _ _ := ([], [])
  decapsulate _ _ := []
  hkdf _ _ _ := []
  nonce _ := []
  encrypt _ _ _ := none
  decrypt _ nonce ciphertext :=
    if nonce ++ ciphertext = List.replicate 29 0 then some (utf8 "data: x") else none
  gzipCompress := some

def sentOnce : List (String × Bytes) := [(base64Encode (List.replicate 29 0), utf8 "data: x")]

theorem authentic_sealedOnce : Authentic sealedOnce () sentOnce := by
  intro init key text plaintext _ h
  simp only [decryptChutesStreamChunk, bind_eq_ok, okOr_eq_ok] at h
  obtain ⟨raw, hraw, -, -, h⟩ := h
  simp only [sealedOnce, take_append_drop, Option.ite_none_right_eq_some] at h
  obtain ⟨rfl, h⟩ := h
  rw [← base64Encode_of_base64Decode hraw, ← Option.some.inj h]
  exact mem_singleton_self _

/-- A usage event that carries choices. -/
def openUsage : Value := .obj [("usage", .null), ("choices", .arr [])]

def openUsageText : String := "\x7b\"usage\":null,\"choices\":[]\x7d"

theorem utf8_openUsageText : utf8 openUsageText = print openUsage := by decide

theorem readSseLine_openUsage :
    readSseLine sealedOnce (fun _ => none) () none (utf8 "data: " ++ utf8 openUsageText) =
      .ok (none, some (.usage openUsageText)) := by
  have hevent : fromSlice (fun _ => none) (utf8 openUsageText) = some openUsage := by
    rw [utf8_openUsageText]
    exact fromSlice_print _ (by decide) rfl rfl
  have hdata : (utf8 "data: " ++ utf8 openUsageText).drop 6 = utf8 openUsageText := rfl
  have hline : lineText (utf8 "data: " ++ utf8 openUsageText) = .ok openUsageText := by
    rfl
  unfold readSseLine
  simp only [hline, bind, Except.bind, okOr, hevent]
  rfl

end AciGateway.Chutes
