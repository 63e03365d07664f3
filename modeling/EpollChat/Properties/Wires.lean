import EpollChat.Construction.Wired
import EpollChat.Framework.Simulation
import EpollChat.Properties.Fragmentation

/-!
# What comes in on a connection is what is handled on it

For any program with the receive loop, over a whole run and all its connections at once.  If what
has come in on a connection is the beginning of a stream of frames, then the messages handled on
it are those of the first frames, each once and in order, and what remains in its input buffer is
what came in behind them (`streaming_run`).  What comes in on the other connections, and what the
program does in between, does not matter.

`Properties/Fragmentation.lean` has this for one receiver alone.
-/

namespace EpollChat

/-- What is about a connection in a list that is about all of them. -/
def onConn {α : Type} (c : ConnId) (l : List (ConnId × α)) : List α :=
  l.filterMap fun x => if x.1 = c then some x.2 else none

section OnConn

variable {α β : Type} (c : ConnId)

@[simp] lemma onConn_append (l l' : List (ConnId × α)) :
    onConn c (l ++ l') = onConn c l ++ onConn c l' := by
  simp [onConn]

@[simp] lemma onConn_nil : onConn c ([] : List (ConnId × α)) = [] := rfl

lemma onConn_singleton (d : ConnId) (a : α) :
    onConn c [(d, a)] = if d = c then [a] else [] := by
  by_cases h : d = c <;> simp [onConn, h]

lemma onConn_map (f : α → β) (l : List (ConnId × α)) :
    onConn c (l.map fun x => (x.1, f x.2)) = (onConn c l).map f := by
  unfold onConn
  rw [List.filterMap_map, List.map_filterMap]
  congr 1
  funext x
  by_cases h : x.1 = c <;> simp [h]

/-- A filter that lets everything through. -/
lemma map_some_filterMap {f : α → Option β} {l : List α} (h : ∀ a ∈ l, ∃ b, f a = some b) :
    (l.filterMap f).map some = l.map f := by
  induction l with
  | nil => rfl
  | cons a l ih =>
      obtain ⟨b, hb⟩ := h a List.mem_cons_self
      rw [List.filterMap_cons_some hb, List.map_cons, List.map_cons, hb,
        ih fun x hx => h x (List.mem_cons_of_mem _ hx)]

end OnConn

namespace Wired

variable {σ ε ι M : Type} (ep : Endpoint σ ε ι) (dec : Decoder UInt8 M)

/-- The message that a round handles, with its connection. -/
def messages (w : Wired σ) : WiredEvent ε ι → List (ConnId × M)
  | .round _ =>
      match ep.serving w.program with
      | none => []
      | some c =>
          if (w.inbuffer c).bufferStart = (w.inbuffer c).bufferEnd then []
          else ((dec (w.inbuffer c).pending).map fun m => (c, m.1)).toList
  | _ => []

/-- No read fails. -/
def NoErrors (_ : Wired σ) : WiredEvent ε ι → Prop
  | .recv _ .error => False
  | _ => True

instance (w : Wired σ) (e : WiredEvent ε ι) : Decidable (NoErrors w e) :=
  match e with
  | .recv _ .error => .isFalse id
  | .recv _ .closed | .recv _ (.data _) | .other _ | .round _ => .isTrue trivial

/-- **The state of a stream.** The messages handled on the connection are those of the frames that
the handler used, and these are what has come in, up to the bytes that wait. -/
structure Streaming (w : Wired σ) (c : ConnId) (ms : List M) : Prop where
  wf : (w.inbuffer c).Wf
  frames : ∀ g ∈ w.handed c, WholeFrame dec g
  received : w.received c = (w.handed c).flatten ++ (w.inbuffer c).pending
  messages : ms = (w.handed c).filterMap fun g => (dec g).map Prod.fst

variable {ep dec}

/-! ## The offsets after a read and after a round -/

lemma wf_store {b : ImBuffer} (hwf : b.Wf) {bytes : Bytes} (hroom : bytes.length ≤ recvRoom b) :
    ({ prepareInbuffer b with
        buffer := EpollChat.store (prepareInbuffer b).buffer (prepareInbuffer b).bufferEnd bytes
        bufferEnd := (prepareInbuffer b).bufferEnd + bytes.length } : ImBuffer).Wf ∧
      ({ prepareInbuffer b with
        buffer := EpollChat.store (prepareInbuffer b).buffer (prepareInbuffer b).bufferEnd bytes
        bufferEnd := (prepareInbuffer b).bufferEnd + bytes.length } : ImBuffer).pending =
        b.pending ++ bytes := by
  obtain ⟨hpending, ⟨hle, hcap, hpos⟩, hlt⟩ := prepareInbuffer_spec hwf
  unfold recvRoom at hroom
  have hread := pending_store_end (prepareInbuffer b) bytes hle
  rw [hpending] at hread
  exact ⟨⟨by dsimp only; omega, by dsimp only; omega, hpos⟩, hread⟩

lemma wf_use {b : ImBuffer} (hwf : b.Wf) {f rest : Bytes} (hpending : b.pending = f ++ rest) :
    ({ b with bufferStart := b.bufferStart + f.length } : ImBuffer).Wf ∧
      ({ b with bufferStart := b.bufferStart + f.length } : ImBuffer).pending = rest := by
  have hlen := congrArg List.length hpending
  rw [ImBuffer.length_pending, List.length_append] at hlen
  obtain ⟨hle, hcap, hpos⟩ := hwf
  refine ⟨⟨by dsimp only; omega, hcap, hpos⟩, ?_⟩
  rw [pending_start_add _ (by omega), hpending, List.drop_left]

/-! ## One step -/

lemma Streaming.of_eq {w w' : Wired σ} {c : ConnId} {ms : List M} (h : Streaming dec w c ms)
    (hbuf : w'.inbuffer c = w.inbuffer c) (hreceived : w'.received c = w.received c)
    (hhanded : w'.handed c = w.handed c) : Streaming dec w' c ms := by
  obtain ⟨hwf, hframes, hrec, hms⟩ := h
  exact ⟨hbuf ▸ hwf, hhanded ▸ hframes, by rw [hreceived, hhanded, hbuf, hrec],
    by rw [hhanded, hms]⟩

lemma Streaming.store {w : Wired σ} {c : ConnId} {ms : List M} (h : Streaming dec w c ms)
    (program : σ) (d : ConnId) {bytes : Bytes} (hroom : bytes.length ≤ recvRoom (w.inbuffer d)) :
    Streaming dec (w.store program d bytes) c ms := by
  by_cases hd : c = d
  · subst hd
    obtain ⟨hwf, hpending⟩ := wf_store h.wf hroom
    refine ⟨?_, h.frames, ?_, h.messages⟩
    · simpa [Wired.store] using hwf
    · simp only [Wired.store, Function.update_self]
      rw [hpending, h.received, List.append_assoc]
  · exact h.of_eq (Function.update_of_ne hd _ _) (Function.update_of_ne hd _ _) rfl

/-- The handler has used a frame that is at the front. -/
lemma Streaming.use {w : Wired σ} {c : ConnId} {ms : List M} (h : Streaming dec w c ms)
    (program : σ) {f rest : Bytes} (hf : WholeFrame dec f)
    (hpending : (w.inbuffer c).pending = f ++ rest) :
    Streaming dec (w.use program c f.length) c (ms ++ ((dec f).map Prod.fst).toList) := by
  obtain ⟨hwf, hrest⟩ := wf_use h.wf hpending
  obtain ⟨m, hm⟩ := hf.2
  have hfront : (w.inbuffer c).pending.take f.length = f := by rw [hpending, List.take_left]
  refine ⟨?_, ?_, ?_, ?_⟩
  · simpa [Wired.use] using hwf
  · simp only [Wired.use, Function.update_self, hfront]
    intro g hg
    rcases List.mem_append.mp hg with hg | hg
    · exact h.frames g hg
    · rwa [List.mem_singleton.mp hg]
  · simp only [Wired.use, Function.update_self, hfront, hrest]
    rw [h.received, hpending]
    simp
  · simp only [Wired.use, Function.update_self, hfront]
    rw [List.filterMap_append, ← h.messages, hm]
    simp [hm]

variable {act : ι → ConnId → σ → M → σ × Option IMResponse}

/-- A round on a connection whose stream is one of frames handles the next of them, or nothing. -/
lemma streaming_round (hd : Incremental dec)
    (hep : ∀ i c, (ep.receiver i c).handler = decodingHandler dec (act i c))
    {fs : List Bytes} (hfs : ∀ f ∈ fs, WholeFrame dec f) {t : Bytes} (ht : Incomplete dec t)
    {w w' : Wired σ} {c : ConnId} {i : ι} {ms : List M} (h : Streaming dec w c ms)
    (hpre : w.received c <+: fs.flatten ++ t) (hstep : w.round ep i = some w') :
    Streaming dec w' c (ms ++ onConn c (messages ep dec w (.round i))) := by
  obtain ⟨d, hserving, hstep⟩ := Option.bind_eq_some_iff.mp hstep
  simp only [messages, hserving]
  dsimp only at hstep
  split at hstep
  · next hempty =>
      obtain ⟨program, -, rfl⟩ := Option.map_eq_some_iff.mp hstep
      rw [if_pos hempty, onConn_nil, List.append_nil]
      exact h.of_eq rfl rfl rfl
  next hne =>
  rw [if_neg hne]
  split at hstep
  · cases hstep
  by_cases hdc : d = c
  · subst hdc
    rw [h.received] at hpre
    obtain ⟨rest, rfl, hrest⟩ := hd.split h.frames hfs ht hpre
    rcases stream_front (fun f hf => hfs f (List.mem_append_right _ hf)) ht hrest with
      hinc | ⟨f, rest', rfl, hf⟩
    · -- too little for a frame: nothing is used
      have hnone := hd.incomplete _ hinc
      rw [handleOnce_none (hep i d) hnone, if_pos rfl] at hstep
      obtain ⟨program, -, rfl⟩ := Option.map_eq_some_iff.mp hstep
      rw [hnone, Option.map_none, Option.toList_none, onConn_nil, List.append_nil]
      exact h.of_eq rfl rfl rfl
    · -- a frame is complete
      have hframe := hfs f (List.mem_append_right _ List.mem_cons_self)
      have hpos : f.length ≠ 0 := fun h => hframe.1 (List.length_eq_zero_iff.mp h)
      rw [handleOnce_frame hd (hep i d) hframe hf, if_neg hpos] at hstep
      obtain rfl := Option.some.inj hstep
      obtain ⟨m, hm⟩ := hframe.2
      rw [hd.dec_of_prefix hframe hf, hm]
      obtain ⟨more, hmore⟩ := hf
      have huse := h.use (handleFrame (ep.receiver i d) w.program f) hframe hmore.symm
      rw [hm] at huse
      simpa [onConn_singleton] using huse
  · -- another connection
    have hother : onConn c ((dec (w.inbuffer d).pending).map fun m => (d, m.1)).toList = [] := by
      cases dec (w.inbuffer d).pending with
      | none => rfl
      | some m => rw [Option.map_some, Option.toList_some, onConn_singleton, if_neg hdc]
    rw [hother, List.append_nil]
    split at hstep
    · obtain ⟨program, -, rfl⟩ := Option.map_eq_some_iff.mp hstep
      exact h.of_eq rfl rfl rfl
    · obtain rfl := Option.some.inj hstep
      exact h.of_eq (Function.update_of_ne (Ne.symm hdc) _ _) rfl
        (Function.update_of_ne (Ne.symm hdc) _ _)

/-- What a step does to the input buffers. -/
lemma step_cases {w w' : Wired σ} {e : WiredEvent ε ι} (hstep : w.step ep e = some w') :
    (∃ program, w' = { w with program }) ∨
      (∃ fd bytes program d, e = .recv fd (.data bytes) ∧
        bytes.length ≤ recvRoom (w.inbuffer d) ∧ w' = w.store program d bytes) ∨
      (∃ fd program d, e = .recv fd .error ∧ w' = w.fail program d) ∨
      ∃ i program d parsed, e = .round i ∧ w' = w.use program d parsed := by
  cases e with
  | round i =>
      obtain ⟨d, -, hstep⟩ := Option.bind_eq_some_iff.mp hstep
      dsimp only at hstep
      split at hstep
      · obtain ⟨program, -, rfl⟩ := Option.map_eq_some_iff.mp hstep
        exact .inl ⟨program, rfl⟩
      split at hstep
      · cases hstep
      split at hstep
      · obtain ⟨program, -, rfl⟩ := Option.map_eq_some_iff.mp hstep
        exact .inl ⟨program, rfl⟩
      · obtain rfl := Option.some.inj hstep
        exact .inr (.inr (.inr ⟨i, _, d, _, rfl, rfl⟩))
  | other e =>
      simp only [Wired.step] at hstep
      split at hstep
      · cases hstep
      · obtain ⟨program, -, rfl⟩ := Option.map_eq_some_iff.mp hstep
        exact .inl ⟨program, rfl⟩
  | recv fd nbytes =>
      cases nbytes with
      | closed =>
          obtain ⟨program, -, rfl⟩ := Option.map_eq_some_iff.mp hstep
          exact .inl ⟨program, rfl⟩
      | data bytes =>
          obtain ⟨program, -, hstep⟩ := Option.bind_eq_some_iff.mp hstep
          split at hstep
          · obtain rfl := Option.some.inj hstep
            exact .inl ⟨program, rfl⟩
          next d _ =>
          split at hstep
          · next hroom =>
              obtain rfl := Option.some.inj hstep
              exact .inr (.inl ⟨fd, bytes, program, d, rfl, hroom.2, rfl⟩)
          · cases hstep
      | error =>
          obtain ⟨program, -, hstep⟩ := Option.bind_eq_some_iff.mp hstep
          split at hstep
          · obtain rfl := Option.some.inj hstep
            exact .inl ⟨program, rfl⟩
          next d _ =>
          split at hstep
          · obtain rfl := Option.some.inj hstep
            exact .inr (.inr (.inl ⟨fd, program, d, rfl, rfl⟩))
          · cases hstep

lemma streaming_step (hd : Incremental dec)
    (hep : ∀ i c, (ep.receiver i c).handler = decodingHandler dec (act i c))
    {fs : List Bytes} (hfs : ∀ f ∈ fs, WholeFrame dec f) {t : Bytes} (ht : Incomplete dec t)
    {w w' : Wired σ} {c : ConnId} {e : WiredEvent ε ι} {ms : List M} (h : Streaming dec w c ms)
    (hpre : w.received c <+: fs.flatten ++ t) (hok : NoErrors w e) (hstep : w.step ep e = some w') :
    Streaming dec w' c (ms ++ onConn c (messages ep dec w e)) := by
  cases e with
  | round i => exact streaming_round hd hep hfs ht h hpre hstep
  | other e =>
      show Streaming dec w' c (ms ++ [])
      rw [List.append_nil]
      rcases step_cases hstep with ⟨program, rfl⟩ | ⟨_, _, _, _, he, -⟩ | ⟨_, _, _, he, -⟩ |
        ⟨_, _, _, _, he, -⟩
      · exact h.of_eq rfl rfl rfl
      all_goals cases he
  | recv fd nbytes =>
      show Streaming dec w' c (ms ++ [])
      rw [List.append_nil]
      rcases step_cases hstep with ⟨program, rfl⟩ | ⟨_, bytes, program, d, he, hroom, rfl⟩ |
        ⟨_, _, _, he, -⟩ | ⟨_, _, _, _, he, -⟩
      · exact h.of_eq rfl rfl rfl
      · exact h.store program d hroom
      · cases he
        exact hok.elim
      · cases he

/-- What has come in stays. -/
lemma received_step {w w' : Wired σ} {e : WiredEvent ε ι} (hstep : w.step ep e = some w')
    (c : ConnId) : w.received c <+: w'.received c := by
  rcases step_cases hstep with ⟨program, rfl⟩ | ⟨_, bytes, program, d, -, -, rfl⟩ |
    ⟨_, program, d, -, rfl⟩ | ⟨_, program, d, parsed, -, rfl⟩
  · exact List.prefix_refl _
  · by_cases hd : c = d
    · subst hd
      simp [Wired.store]
    · simp [Wired.store, hd]
  · exact List.prefix_refl _
  · exact List.prefix_refl _

/-! ## All runs -/

/-- **Streams.** In every run in which no read fails, a connection on which a stream of frames
comes in is in the state that the stream prescribes. -/
lemma streaming_run (hd : Incremental dec)
    (hep : ∀ i c, (ep.receiver i c).handler = decodingHandler dec (act i c))
    {fs : List Bytes} (hfs : ∀ f ∈ fs, WholeFrame dec f) {t : Bytes} (ht : Incomplete dec t)
    {ok : Wired σ → WiredEvent ε ι → Prop} (hok : ∀ w e, ok w e → NoErrors w e) {k : σ}
    {es : List (WiredEvent ε ι)} {w : Wired σ} (run : Run (Wired.step ep) ok (Wired.init k) es w)
    {c : ConnId} (hpre : w.received c <+: fs.flatten ++ t) :
    Streaming dec w c
      (onConn c (trace (Wired.step ep) (messages ep dec) (Wired.init k) es)) := by
  induction run with
  | nil => exact ⟨⟨le_rfl, Nat.zero_le _, Nat.succ_pos _⟩, by simp [Wired.init], rfl, rfl⟩
  | snoc run allowed completes ih =>
      have hbefore := (received_step completes c).trans hpre
      rw [trace_snoc run, onConn_append]
      exact streaming_step hd hep hfs ht (ih hbefore) hbefore (hok _ _ allowed) completes

/-- What is handled are the first frames of the stream, and what waits is what came in behind
them. -/
lemma messages_of_stream (hd : Incremental dec)
    (hep : ∀ i c, (ep.receiver i c).handler = decodingHandler dec (act i c))
    {fs : List Bytes} (hfs : ∀ f ∈ fs, WholeFrame dec f) {t : Bytes} (ht : Incomplete dec t)
    {ok : Wired σ → WiredEvent ε ι → Prop} (hok : ∀ w e, ok w e → NoErrors w e) {k : σ}
    {es : List (WiredEvent ε ι)} {w : Wired σ} (run : Run (Wired.step ep) ok (Wired.init k) es w)
    {c : ConnId} (hpre : w.received c <+: fs.flatten ++ t) :
    ∃ rest, fs = w.handed c ++ rest ∧
      onConn c (trace (Wired.step ep) (messages ep dec) (Wired.init k) es) =
        (w.handed c).filterMap (fun g => (dec g).map Prod.fst) ∧
      w.received c = (w.handed c).flatten ++ (w.inbuffer c).pending := by
  obtain ⟨-, hframes, hreceived, hms⟩ := streaming_run hd hep hfs ht hok run hpre
  rw [hreceived] at hpre
  obtain ⟨rest, hrest, -⟩ := hd.split hframes hfs ht hpre
  exact ⟨rest, hrest, hms, hreceived⟩

/-! ## Where nothing is read -/

/-- Reading is begun and ended by the receive loop alone. -/
structure Orderly (ep : Endpoint σ ε ι) : Prop where
  other : ∀ {k e k'}, ep.ofRead e = false → ep.step k e = some k' → ep.serving k' = ep.serving k
  eof : ∀ {k fd k'}, ep.step k (ep.eof fd) = some k' →
    ep.serving k = none ∧ ep.serving k' = none
  readable : ∀ {k fd k'}, ep.step k (ep.readable fd) = some k' → ep.serving k = none
  handler : ∀ i c k cmd, ep.serving (handleOnce (ep.receiver i c) k cmd).1 = ep.serving k
  readDone : ∀ {k k'}, ep.step k ep.readDone = some k' → ep.serving k' = none

/-- A connection that is not read has no complete frame waiting. -/
def Idle (ep : Endpoint σ ε ι) (dec : Decoder UInt8 M) (w : Wired σ) (c : ConnId) : Prop :=
  ep.serving w.program ≠ some c → Stalled dec (w.inbuffer c).pending

lemma idle_round (hord : Orderly ep) (hd : Incremental dec)
    (hep : ∀ i c, (ep.receiver i c).handler = decodingHandler dec (act i c))
    {fs : List Bytes} (hfs : ∀ f ∈ fs, WholeFrame dec f) {t : Bytes} (ht : Incomplete dec t)
    {w w' : Wired σ} {c : ConnId} {i : ι} {ms : List M} (h : Streaming dec w c ms)
    (hpre : w.received c <+: fs.flatten ++ t) (hidle : Idle ep dec w c)
    (hstep : w.round ep i = some w') : Idle ep dec w' c := by
  obtain ⟨d, hserving, hstep⟩ := Option.bind_eq_some_iff.mp hstep
  -- a connection that was not read is not touched
  have hother : d ≠ c → Stalled dec (w.inbuffer c).pending := fun hdc =>
    hidle (by rw [hserving]; exact fun heq => hdc (Option.some.inj heq))
  dsimp only at hstep
  split at hstep
  · next hempty =>
      obtain ⟨program, -, rfl⟩ := Option.map_eq_some_iff.mp hstep
      intro _
      by_cases hdc : d = c
      · subst hdc
        have hnil : (w.inbuffer d).pending = [] :=
          List.length_eq_zero_iff.mp (by rw [ImBuffer.length_pending]; omega)
        show Stalled dec (w.inbuffer d).pending
        rw [hnil]
        exact stalled_nil
      · exact hother hdc
  split at hstep
  · cases hstep
  split at hstep
  · next hused =>
      obtain ⟨program, -, rfl⟩ := Option.map_eq_some_iff.mp hstep
      intro _
      by_cases hdc : d = c
      · subst hdc
        rw [h.received] at hpre
        obtain ⟨rest, rfl, hrest⟩ := hd.split h.frames hfs ht hpre
        rcases stream_front (fun f hf => hfs f (List.mem_append_right _ hf)) ht hrest with
          hinc | ⟨f, rest', rfl, hf⟩
        · exact hd.stalled hinc
        · have hframe := hfs f (List.mem_append_right _ List.mem_cons_self)
          rw [handleOnce_frame hd (hep i d) hframe hf] at hused
          exact absurd (List.length_eq_zero_iff.mp hused) hframe.1
      · exact hother hdc
  · obtain rfl := Option.some.inj hstep
    intro hserving'
    have hdc : d ≠ c := fun hdc => hserving' (by
      show ep.serving (handleOnce (ep.receiver i d) w.program _).1 = some c
      rw [hord.handler, hserving, hdc])
    have hbuf : (w.use (handleOnce (ep.receiver i d) w.program (w.inbuffer d).pending).1 d
        (handleOnce (ep.receiver i d) w.program (w.inbuffer d).pending).2).inbuffer c =
          w.inbuffer c := Function.update_of_ne (Ne.symm hdc) _ _
    rw [hbuf]
    exact hother hdc

lemma idle_step (hord : Orderly ep) (hd : Incremental dec)
    (hep : ∀ i c, (ep.receiver i c).handler = decodingHandler dec (act i c))
    {fs : List Bytes} (hfs : ∀ f ∈ fs, WholeFrame dec f) {t : Bytes} (ht : Incomplete dec t)
    {w w' : Wired σ} {c : ConnId} {e : WiredEvent ε ι} {ms : List M} (h : Streaming dec w c ms)
    (hpre : w.received c <+: fs.flatten ++ t) (hok : NoErrors w e) (hidle : Idle ep dec w c)
    (hstep : w.step ep e = some w') : Idle ep dec w' c := by
  cases e with
  | round i => exact idle_round hord hd hep hfs ht h hpre hidle hstep
  | other e =>
      simp only [Wired.step] at hstep
      split at hstep
      · cases hstep
      next hread =>
      obtain ⟨program, hprogram, rfl⟩ := Option.map_eq_some_iff.mp hstep
      intro hserving
      refine hidle fun hc => hserving ?_
      rw [← hc]
      exact hord.other (by simpa using hread) hprogram
  | recv fd nbytes =>
      cases nbytes with
      | error => exact hok.elim
      | closed =>
          obtain ⟨program, hprogram, rfl⟩ := Option.map_eq_some_iff.mp hstep
          intro _
          exact hidle (by rw [(hord.eof hprogram).1]; exact (Option.some_ne_none c).symm)
      | data bytes =>
          obtain ⟨program, hprogram, hstep⟩ := Option.bind_eq_some_iff.mp hstep
          have hbefore : Stalled dec (w.inbuffer c).pending :=
            hidle (by rw [hord.readable hprogram]; exact (Option.some_ne_none c).symm)
          split at hstep
          · obtain rfl := Option.some.inj hstep
            exact fun _ => hbefore
          next d hserving =>
          split at hstep
          · obtain rfl := Option.some.inj hstep
            intro hserving'
            have hdc : d ≠ c := fun hdc => hserving' (hdc ▸ hserving)
            have hbuf : (w.store program d bytes).inbuffer c = w.inbuffer c :=
              Function.update_of_ne (Ne.symm hdc) _ _
            rw [hbuf]
            exact hbefore
          · cases hstep

/-- **Nothing complete is left.** A connection that is not being read has only the beginning of a
frame waiting. -/
lemma idle_run (hord : Orderly ep) (hd : Incremental dec)
    (hep : ∀ i c, (ep.receiver i c).handler = decodingHandler dec (act i c))
    {fs : List Bytes} (hfs : ∀ f ∈ fs, WholeFrame dec f) {t : Bytes} (ht : Incomplete dec t)
    {ok : Wired σ → WiredEvent ε ι → Prop} (hok : ∀ w e, ok w e → NoErrors w e) {k : σ}
    {es : List (WiredEvent ε ι)} {w : Wired σ} (run : Run (Wired.step ep) ok (Wired.init k) es w)
    {c : ConnId} (hpre : w.received c <+: fs.flatten ++ t) : Idle ep dec w c := by
  induction run with
  | nil => exact fun _ => stalled_nil
  | snoc run allowed completes ih =>
      have hbefore := (received_step completes c).trans hpre
      exact idle_step hord hd hep hfs ht (streaming_run hd hep hfs ht hok run hbefore) hbefore
        (hok _ _ allowed) (ih hbefore) completes

/-- Once the whole stream has come in and is not being read any more, all its frames are
handled. -/
lemma all_handled (hord : Orderly ep) (hd : Incremental dec)
    (hep : ∀ i c, (ep.receiver i c).handler = decodingHandler dec (act i c))
    {fs : List Bytes} (hfs : ∀ f ∈ fs, WholeFrame dec f) {t : Bytes} (ht : Incomplete dec t)
    {ok : Wired σ → WiredEvent ε ι → Prop} (hok : ∀ w e, ok w e → NoErrors w e) {k : σ}
    {es : List (WiredEvent ε ι)} {w : Wired σ} (run : Run (Wired.step ep) ok (Wired.init k) es w)
    {c : ConnId} (hall : w.received c = fs.flatten ++ t)
    (hdone : ep.serving w.program ≠ some c) : w.handed c = fs := by
  have hpre : w.received c <+: fs.flatten ++ t := hall ▸ List.prefix_refl _
  obtain ⟨rest, rfl, -, hreceived⟩ := messages_of_stream hd hep hfs ht hok run hpre
  have hstalled := idle_run hord hd hep hfs ht hok run hpre hdone
  cases rest with
  | nil => rw [List.append_nil]
  | cons f rest =>
      have hpending : (w.inbuffer c).pending = f ++ (rest.flatten ++ t) := by
        rw [hall, List.flatten_append, List.append_assoc] at hreceived
        simpa using (List.append_cancel_left hreceived).symm
      exact absurd ⟨_, hpending.symm⟩ (hstalled f (hfs f (by simp)))

/-! ## A program on bytes is the program on messages -/

variable {ρ : Type}

/-- The call of the handler on a message is the event of what the message parses to. -/
structure Handles (ep : Endpoint σ ε ι) (dec : Decoder UInt8 M) (parse : M → Option ρ)
    (event : ι → ρ → ε) : Prop where
  nothing : ∀ {i c k cmd}, dec cmd = none → handleOnce (ep.receiver i c) k cmd = (k, 0)
  matched : ∀ {i c k cmd msg n}, ep.serving k = some c → dec cmd = some (msg, n) →
    ep.admits k i = true → ep.sound (handleOnce (ep.receiver i c) k cmd).1 = true →
      (handleOnce (ep.receiver i c) k cmd).2 = n ∧
        ∃ r, parse msg = some r ∧
          ep.step k (event i r) = some (handleOnce (ep.receiver i c) k cmd).1

/-- The events that a step on bytes stands for. -/
def events (ep : Endpoint σ ε ι) (dec : Decoder UInt8 M) (parse : M → Option ρ)
    (event : ι → ρ → ε) (w : Wired σ) : WiredEvent ε ι → List ε
  | .other e => [e]
  | .recv fd .closed => [ep.eof fd]
  | .recv fd _ => [ep.readable fd]
  | .round i =>
      match ep.serving w.program with
      | none => []
      | some c =>
          if (w.inbuffer c).bufferStart = (w.inbuffer c).bufferEnd then [ep.readDone]
          else
            match dec (w.inbuffer c).pending with
            | none => [ep.readDone]
            | some (msg, parsed) =>
                ((parse msg).map (event i)).toList ++ if parsed = 0 then [ep.readDone] else []

/-- A side condition on the events that read nothing. -/
def onOther (ok : σ → ε → Prop) (w : Wired σ) : WiredEvent ε ι → Prop
  | .other e => ok w.program e
  | _ => True

instance (ok : σ → ε → Prop) [∀ s e, Decidable (ok s e)] (w : Wired σ) (e : WiredEvent ε ι) :
    Decidable (onOther ok w e) :=
  match e with
  | .other e => inferInstanceAs (Decidable (ok w.program e))
  | .recv .. | .round _ => .isTrue trivial

/-- The results of the messages that a step handles, with their connections. -/
def results (ep : Endpoint σ ε ι) (dec : Decoder UInt8 M) (parse : M → Option ρ) (w : Wired σ)
    (e : WiredEvent ε ι) : List (ConnId × ρ) :=
  (messages ep dec w e).filterMap fun x => (parse x.2).map fun r => (x.1, r)

variable {parse : M → Option ρ} {event : ι → ρ → ε}

section Simulation

variable (hhandles : Handles ep dec parse event) {ok : σ → ε → Prop}
  (hok : ∀ k i r, ok k (event i r)) (hdone : ∀ k, ok k ep.readDone)
include hhandles hok hdone

/-- A round is the event of the message that the waiting bytes begin with, or the end of the
read. -/
lemma run_round {w w' : Wired σ} {i : ι} (hstep : w.round ep i = some w') :
    Run ep.step ok w.program (events ep dec parse event w (.round i)) w'.program := by
  obtain ⟨c, hserving, hstep⟩ := Option.bind_eq_some_iff.mp hstep
  simp only [events, hserving]
  dsimp only at hstep
  split at hstep
  · next hempty =>
      obtain ⟨program, hprogram, rfl⟩ := Option.map_eq_some_iff.mp hstep
      rw [if_pos hempty]
      exact .single (hdone _) hprogram
  next hne =>
  rw [if_neg hne]
  split at hstep
  · cases hstep
  next hadmitted =>
  cases hdec : dec (w.inbuffer c).pending with
  | none =>
      simp only [hhandles.nothing hdec, if_true] at hstep
      obtain ⟨program, hprogram, rfl⟩ := Option.map_eq_some_iff.mp hstep
      exact .single (hdone _) hprogram
  | some p =>
      obtain ⟨msg, n⟩ := p
      simp only [Bool.or_eq_true, Bool.not_eq_true', not_or, Bool.not_eq_false] at hadmitted
      obtain ⟨hused, r, hr, hevent⟩ :=
        hhandles.matched hserving hdec hadmitted.1 hadmitted.2
      rw [hused] at hstep
      simp only [hr, Option.map_some, Option.toList_some]
      split at hstep
      · next hzero =>
          obtain ⟨program, hprogram, rfl⟩ := Option.map_eq_some_iff.mp hstep
          rw [if_pos hzero]
          exact .cons (hok _ i r) hevent (.single (hdone _) hprogram)
      · next hpos =>
          obtain rfl := Option.some.inj hstep
          rw [if_neg hpos, List.append_nil]
          exact .single (hok _ i r) hevent

/-- **Simulation.** Every step on bytes is a run of the program on messages. -/
lemma simulates (hread : ∀ k fd, ok k (ep.readable fd) ∧ ok k (ep.eof fd)) :
    Simulates (Wired.step ep) (onOther ok) ep.step ok Wired.program (events ep dec parse event)
      fun _ => True := by
  refine ⟨fun {w e w'} _ hallowed hstep => ?_⟩
  cases e with
  | round i => exact run_round hhandles hok hdone hstep
  | other e =>
      simp only [Wired.step] at hstep
      split at hstep
      · cases hstep
      · obtain ⟨program, hprogram, rfl⟩ := Option.map_eq_some_iff.mp hstep
        exact .single hallowed hprogram
  | recv fd nbytes =>
      cases nbytes with
      | closed =>
          obtain ⟨program, hprogram, rfl⟩ := Option.map_eq_some_iff.mp hstep
          exact .single (hread _ fd).2 hprogram
      | data bytes =>
          obtain ⟨program, hprogram, hstep⟩ := Option.bind_eq_some_iff.mp hstep
          have hrun : Run ep.step ok w.program [ep.readable fd] program :=
            .single (hread _ fd).1 hprogram
          split at hstep
          · obtain rfl := Option.some.inj hstep
            exact hrun
          · split at hstep
            · obtain rfl := Option.some.inj hstep
              exact hrun
            · cases hstep
      | error =>
          obtain ⟨program, hprogram, hstep⟩ := Option.bind_eq_some_iff.mp hstep
          have hrun : Run ep.step ok w.program [ep.readable fd] program :=
            .single (hread _ fd).1 hprogram
          split at hstep
          · obtain rfl := Option.some.inj hstep
            exact hrun
          · split at hstep
            · obtain rfl := Option.some.inj hstep
              exact hrun
            · cases hstep

omit hok hdone

/-- A message that is handled parses. -/
lemma parse_of_messages {w w' : Wired σ} {e : WiredEvent ε ι} (hstep : w.step ep e = some w') :
    ∀ x ∈ messages ep dec w e, ∃ r, parse x.2 = some r := by
  cases e with
  | other | recv => exact fun _ hx => absurd hx List.not_mem_nil
  | round i =>
      obtain ⟨c, hserving, hstep⟩ := Option.bind_eq_some_iff.mp hstep
      simp only [messages, hserving]
      dsimp only at hstep
      split at hstep
      · next hempty =>
          rw [if_pos hempty]
          exact fun _ hx => absurd hx List.not_mem_nil
      next hne =>
      rw [if_neg hne]
      split at hstep
      · cases hstep
      next hadmitted =>
      simp only [Bool.or_eq_true, Bool.not_eq_true', not_or, Bool.not_eq_false] at hadmitted
      intro x hx
      obtain ⟨p, hdec, rfl⟩ := Option.map_eq_some_iff.mp (Option.mem_toList.mp hx)
      obtain ⟨-, r, hr, -⟩ :=
        hhandles.matched hserving (n := p.2) hdec hadmitted.1 hadmitted.2
      exact ⟨r, hr⟩

end Simulation

/-! ## What is observed -/

/-- What is observed of a step on bytes, through the events that it stands for. -/
def observed {ο : Type} (ep : Endpoint σ ε ι) (dec : Decoder UInt8 M) (parse : M → Option ρ)
    (event : ι → ρ → ε) (obs : σ → ε → List ο) (w : Wired σ) (e : WiredEvent ε ι) : List ο :=
  trace ep.step obs w.program (events ep dec parse event w e)

/-- An observation of the program on messages that sees the message events only. -/
structure Observes (ep : Endpoint σ ε ι) (event : ι → ρ → ε) (obs : σ → ε → List (ConnId × ρ)) :
    Prop where
  other : ∀ k e, ep.ofRead e = false → obs k e = []
  eof : ∀ k fd, obs k (ep.eof fd) = []
  readable : ∀ k fd, obs k (ep.readable fd) = []
  readDone : ∀ k, obs k ep.readDone = []
  message : ∀ {k c} i r, ep.serving k = some c → obs k (event i r) = [(c, r)]

/-- The events that a step on bytes stands for are observed as the messages that it handles. -/
lemma trace_events {obs : σ → ε → List (ConnId × ρ)} (hobs : Observes ep event obs)
    {w w' : Wired σ} {e : WiredEvent ε ι} (hstep : w.step ep e = some w') :
    trace ep.step obs w.program (events ep dec parse event w e) = results ep dec parse w e := by
  cases e with
  | other e =>
      simp only [Wired.step] at hstep
      split at hstep
      · cases hstep
      · next hread =>
          rw [events, trace_singleton, hobs.other _ _ (by simpa using hread)]
          rfl
  | recv fd nbytes =>
      cases nbytes <;> rw [events, trace_singleton]
      · exact hobs.eof _ _
      · exact hobs.readable _ _
      · simp
      · exact hobs.readable _ _
      · simp
  | round i =>
      obtain ⟨c, hserving, -⟩ := Option.bind_eq_some_iff.mp hstep
      simp only [events, results, messages, hserving]
      split
      · rw [trace_singleton, hobs.readDone]
        rfl
      cases dec (w.inbuffer c).pending with
      | none =>
          simp only
          rw [trace_singleton, hobs.readDone]
          rfl
      | some p =>
          obtain ⟨msg, n⟩ := p
          have hrest : ∀ k, trace ep.step obs k (if n = 0 then [ep.readDone] else []) = [] := by
            intro k
            split
            · rw [trace_singleton, hobs.readDone]
            · rfl
          cases hr : parse msg with
          | none => simp [hr, hrest]
          | some r =>
              simp only [hr, Option.map_some, Option.toList_some, List.singleton_append,
                List.filterMap_cons, List.filterMap_nil]
              rw [trace, hobs.message i r hserving]
              cases ep.step w.program (event i r) <;> simp [hrest]

section Results

variable (hhandles : Handles ep dec parse event)
include hhandles

/-- The results of the messages handled on a connection with a stream of frames: every frame that
the handler used gives one. -/
lemma results_of_stream (hd : Incremental dec)
    (hep : ∀ i c, (ep.receiver i c).handler = decodingHandler dec (act i c))
    {fs : List Bytes} (hfs : ∀ f ∈ fs, WholeFrame dec f) {t : Bytes} (ht : Incomplete dec t)
    {ok : Wired σ → WiredEvent ε ι → Prop} (hok : ∀ w e, ok w e → NoErrors w e) {k : σ}
    {es : List (WiredEvent ε ι)} {w : Wired σ} (run : Run (Wired.step ep) ok (Wired.init k) es w)
    {c : ConnId} (hpre : w.received c <+: fs.flatten ++ t) :
    (onConn c (trace (Wired.step ep) (results ep dec parse) (Wired.init k) es)).map some =
      (w.handed c).map fun g => (dec g).bind fun m => parse m.1 := by
  obtain ⟨-, hframes, -, hms⟩ := streaming_run hd hep hfs ht hok run hpre
  have hparse := trace_forall (messages ep dec) run
    fun {w e w'} _ hstep => parse_of_messages hhandles hstep
  -- the results, read off the messages on this connection
  have hresults : onConn c (trace (Wired.step ep) (results ep dec parse) (Wired.init k) es) =
      (onConn c (trace (Wired.step ep) (messages ep dec) (Wired.init k) es)).filterMap parse := by
    have hfilter := trace_filterMap (Wired.step ep) (messages ep dec)
      (fun x => (parse x.2).map fun r => (x.1, r)) (Wired.init k) es
    show onConn c (trace (Wired.step ep) (fun w e => (messages ep dec w e).filterMap _) _ _) = _
    rw [hfilter]
    simp only [onConn, List.filterMap_filterMap]
    refine List.filterMap_congr fun x _ => ?_
    by_cases hx : x.1 = c <;> cases h : parse x.2 <;> simp [hx, h]
  have hsome : ∀ m ∈ onConn c (trace (Wired.step ep) (messages ep dec) (Wired.init k) es),
      ∃ r, parse m = some r := by
    intro m hm
    obtain ⟨x, hx, hxm⟩ := List.mem_filterMap.mp hm
    split at hxm
    · obtain rfl := Option.some.inj hxm
      exact hparse x hx
    · cases hxm
  rw [hms] at hsome hresults
  rw [hresults, List.filterMap_filterMap]
  have hbind : ∀ g, ((dec g).map Prod.fst).bind parse = (dec g).bind fun m => parse m.1 :=
    fun g => by cases dec g <;> rfl
  simp only [hbind]
  refine map_some_filterMap fun g hg => ?_
  obtain ⟨m, hm⟩ := (hframes g hg).2
  obtain ⟨r, hr⟩ := hsome m (List.mem_filterMap.mpr ⟨g, hg, by rw [hm]; rfl⟩)
  exact ⟨r, by rw [hm]; exact hr⟩

/-- **Delivery.** Where the stream is one of encoded items, the results on the connection are
those of the first items, in order, and of all items once the whole stream has come in and is not
being read. -/
lemma delivered (hord : Orderly ep) (hd : Incremental dec)
    (hep : ∀ i c, (ep.receiver i c).handler = decodingHandler dec (act i c))
    {ok : Wired σ → WiredEvent ε ι → Prop} (hok : ∀ w e, ok w e → NoErrors w e) {k : σ}
    {es : List (WiredEvent ε ι)} {w : Wired σ} (run : Run (Wired.step ep) ok (Wired.init k) es w)
    {X : Type} {encode : X → Bytes} {xs : List X} (hxs : ∀ x ∈ xs, WholeFrame dec (encode x))
    {t : Bytes} (ht : Incomplete dec t) {c : ConnId}
    (hpre : w.received c <+: (xs.map encode).flatten ++ t) :
    ∃ n, (onConn c (trace (Wired.step ep) (results ep dec parse) (Wired.init k) es)).map some =
        (xs.take n).map (fun x => (dec (encode x)).bind fun m => parse m.1) ∧
      ((xs.take n).map encode).flatten <+: w.received c ∧
      (w.received c = (xs.map encode).flatten ++ t → ep.serving w.program ≠ some c →
        xs.take n = xs) := by
  have hfs : ∀ g ∈ xs.map encode, WholeFrame dec g := by
    intro g hg
    obtain ⟨x, hx, rfl⟩ := List.mem_map.mp hg
    exact hxs x hx
  obtain ⟨rest, hsplit, -, hreceived⟩ := messages_of_stream hd hep hfs ht hok run hpre
  have hhanded : w.handed c = (xs.take (w.handed c).length).map encode := by
    rw [List.map_take, hsplit, List.take_left]
  refine ⟨(w.handed c).length, ?_, ?_, fun hall hdone => ?_⟩
  · rw [results_of_stream hhandles hd hep hfs ht hok run hpre, hhanded, List.map_map, ← hhanded]
    rfl
  · rw [← hhanded, hreceived]
    exact List.prefix_append _ _
  · have hwhole := all_handled hord hd hep hfs ht hok run hall hdone
    rw [hwhole, List.length_map, List.take_length]

end Results

end Wired

end EpollChat
