import Mathlib.Data.List.TakeWhile
import PromptForge.SerialLines

namespace PromptForge.SerialLines
open Streams

structure Open (limit : ℕ) (buffer : Bytes) : Prop where
  noEnd : ∀ b ∈ buffer, isEnd b = false
  short : buffer.length < limit

def receive (limit : ℕ) (buffer raw : Bytes) : List Line × Bytes :=
  if raw = [] then ([], buffer) else splitBuffer limit (buffer ++ raw)

lemma receive_round (config : Config) (s : Runtime) (raw : Bytes) :
    receive config.maxLineLength s.lineBuffer raw = ((round config s raw).1, (round config s raw).2.lineBuffer) := by
  rw [receive, round]
  split <;> rfl

lemma feedAll_round (config : Config) (s : Runtime) (reads : List Bytes) :
    feedAll (receive config.maxLineLength) s.lineBuffer reads =
      ((feedAll (round config) s reads).1, (feedAll (round config) s reads).2.lineBuffer) :=
  feedAll_part (receive_round config) s reads

lemma session_lines (config : Config) (reads : List Bytes) :
    (session config reads).1 = (feedAll (receive config.maxLineLength) [] reads).1 ++
      if (feedAll (receive config.maxLineLength) [] reads).2 = [] then []
      else [⟨(feedAll (receive config.maxLineLength) [] reads).2, false, false⟩] := by
  have h := feedAll_round config start reads
  rw [show start.lineBuffer = [] from rfl] at h
  rw [h]
  simp only [session, flushLineBuffer]
  split <;> rfl

variable {limit : ℕ} {buffer run : Bytes}

variable {rest : Bytes} {b : UInt8}

lemma takeWhile_run (hrun : ∀ c ∈ run, isEnd c = false) (hb : isEnd b = true) :
    (run ++ b :: rest).takeWhile (fun c => !isEnd c) = run ∧ (run ++ b :: rest).dropWhile (fun c => !isEnd c) = b :: rest := by
  have hkept : ∀ c ∈ run, (!isEnd c) = true := fun c hc => by rw [hrun c hc]; rfl
  rw [List.takeWhile_append_of_pos hkept, List.dropWhile_append_of_pos hkept]
  simp [hb]

lemma splitBuffer_open (hrun : ∀ c ∈ run, isEnd c = false) :
    splitBuffer limit run = if limit ≤ run.length then ([⟨run.take limit, true, false⟩], run.drop limit) else ([], run) := by
  have hnone : run.dropWhile (fun c => !isEnd c) = [] := by
    rw [List.dropWhile_eq_nil_iff]
    exact fun c hc => by rw [hrun c hc]; rfl
  rw [splitBuffer]
  split
  · rfl
  · rename_i heq
    rw [hnone] at heq
    cases heq

lemma splitBuffer_end (hrun : ∀ c ∈ run, isEnd c = false) (hb : isEnd b = true) :
    splitBuffer limit (run ++ b :: rest) =
      (endedLine limit run :: (splitBuffer limit (rest.dropWhile isEnd)).1, (splitBuffer limit (rest.dropWhile isEnd)).2) := by
  obtain ⟨htake, hdrop⟩ := @takeWhile_run run rest b hrun hb
  rw [splitBuffer]
  split
  · rename_i heq
    rw [hdrop] at heq
    cases heq
  · rename_i heq
    rw [hdrop] at heq
    cases heq
    rw [htake]

lemma run_cases (buffer : Bytes) :
    (∀ c ∈ buffer, isEnd c = false) ∨ ∃ run b rest, buffer = run ++ b :: rest ∧ (∀ c ∈ run, isEnd c = false) ∧ isEnd b = true := by
  induction buffer with
  | nil => exact .inl (by simp)
  | cons c rest ih =>
    cases hc : isEnd c with
    | true => exact .inr ⟨[], c, rest, rfl, by simp, hc⟩
    | false =>
      cases ih with
      | inl hnone => exact .inl (List.forall_mem_cons.mpr ⟨hc, hnone⟩)
      | inr hsome =>
        obtain ⟨run, b, later, rfl, hrun, hb⟩ := hsome
        exact .inr ⟨c :: run, b, later, rfl, List.forall_mem_cons.mpr ⟨hc, hrun⟩, hb⟩

lemma splitBuffer_keeps (buffer : Bytes) (hlength : buffer.length < 2 * limit) :
    Open limit (splitBuffer limit buffer).2 := by
  induction hn : buffer.length using Nat.strongRecOn generalizing buffer with
  | _ n ih =>
    cases run_cases buffer with
    | inl hrun =>
      rw [splitBuffer_open hrun]
      split
      · exact ⟨fun c hc => hrun c (List.mem_of_mem_drop hc), by simp only [List.length_drop]; omega⟩
      · exact ⟨hrun, by simp only; omega⟩
    | inr hend =>
      obtain ⟨run, b, rest, rfl, hrun, hb⟩ := hend
      have hrest := (List.dropWhile_sublist (l := rest) isEnd).length_le
      simp only [List.length_append, List.length_cons] at hn hlength
      rw [splitBuffer_end hrun hb]
      exact ih _ (by omega) _ (by omega) rfl

lemma receive_keeps {raw : Bytes} (hbuffer : Open limit buffer) (hraw : raw.length ≤ limit) :
    Open limit (receive limit buffer raw).2 := by
  have hshort := hbuffer.short
  rw [receive]
  split
  · exact hbuffer
  · exact splitBuffer_keeps _ (by rw [List.length_append]; omega)

lemma open_nil (hlimit : 0 < limit) : Open limit [] := ⟨by simp, hlimit⟩

lemma receive_end (hbuffer : Open limit buffer) (hb : isEnd b = true) :
    receive limit buffer [b] = ([⟨buffer, false, true⟩], []) := by
  have hshort := hbuffer.short
  rw [receive, if_neg (List.cons_ne_nil _ _), splitBuffer_end hbuffer.noEnd hb, endedLine, if_neg (by omega), List.dropWhile_nil,
    splitBuffer_open (by simp), if_neg (by simp only [List.length_nil]; omega)]

lemma noEnd_concat (hbuffer : Open limit buffer) (hb : isEnd b = false) : ∀ c ∈ buffer ++ [b], isEnd c = false := by
  intro c hc
  cases List.mem_append.mp hc with
  | inl hmem => exact hbuffer.noEnd c hmem
  | inr hlast => rw [List.mem_singleton.mp hlast]; exact hb

lemma receive_byte (hbuffer : Open limit buffer) (hb : isEnd b = false) (hshort : buffer.length + 1 < limit) :
    receive limit buffer [b] = ([], buffer ++ [b]) := by
  rw [receive, if_neg (List.cons_ne_nil _ _), splitBuffer_open (noEnd_concat hbuffer hb), if_neg (by simp; omega)]

lemma receive_full (hbuffer : Open limit buffer) (hb : isEnd b = false) (hfull : buffer.length + 1 = limit) :
    receive limit buffer [b] = ([⟨buffer ++ [b], true, false⟩], []) := by
  have hlength : (buffer ++ [b]).length = limit := by rw [List.length_append, List.length_singleton, hfull]
  rw [receive, if_neg (List.cons_ne_nil _ _), splitBuffer_open (noEnd_concat hbuffer hb), if_pos (by omega),
    List.take_of_length_le (by omega), List.drop_eq_nil_of_le (by omega)]

lemma singly_keeps (hlimit : 0 < limit) (hbuffer : Open limit buffer) (stream : Bytes) :
    Open limit (singly (receive limit) buffer stream).2 := by
  refine @feedAll_keeps _ _ _ (receive limit) (fun raw => raw.length ≤ limit) (Open limit)
    (fun s raw hraw hs => receive_keeps hs hraw) buffer _ ?_ hbuffer
  intro raw hraw
  obtain ⟨b, -, rfl⟩ := List.mem_map.mp hraw
  exact hlimit

lemma singly_short (hrun : ∀ c ∈ run, isEnd c = false) (hbuffer : Open limit buffer) (hshort : buffer.length + run.length < limit) :
    singly (receive limit) buffer run = ([], buffer ++ run) := by
  induction run generalizing buffer with
  | nil => simp
  | cons b run ih =>
    rw [List.length_cons] at hshort
    obtain ⟨hb, hrest⟩ := List.forall_mem_cons.mp hrun
    have hnext : Open limit (buffer ++ [b]) := ⟨noEnd_concat hbuffer hb, by simp; omega⟩
    rw [singly_cons, receive_byte hbuffer hb (by omega), ih hrest hnext (by simp; omega)]
    simp

lemma singly_long (hlimit : 0 < limit) (hrun : ∀ c ∈ run, isEnd c = false) (hbuffer : Open limit buffer)
    (hlong : limit ≤ buffer.length + run.length) (hbound : buffer.length + run.length < 2 * limit) :
    singly (receive limit) buffer run = ([⟨(buffer ++ run).take limit, true, false⟩], (buffer ++ run).drop limit) := by
  have hshort := hbuffer.short
  obtain ⟨before, b, after, rfl, hbefore⟩ : ∃ before b after, run = before ++ b :: after ∧ buffer.length + before.length + 1 = limit := by
    have hparts := List.take_append_drop (limit - buffer.length - 1) run
    have hlength := @List.length_drop _ (limit - buffer.length - 1) run
    cases hdrop : run.drop (limit - buffer.length - 1) with
    | nil =>
      rw [hdrop, List.length_nil] at hlength
      omega
    | cons b after =>
      rw [hdrop] at hparts
      exact ⟨_, b, after, hparts.symm, by rw [List.length_take]; omega⟩
  have hfirst : ∀ c ∈ before, isEnd c = false := fun c hc => hrun c (List.mem_append_left _ hc)
  obtain ⟨hb, hafter⟩ := List.forall_mem_cons.mp fun c hc => hrun c (List.mem_append_right before hc)
  have hfilled : Open limit (buffer ++ before) := by
    refine ⟨fun c hc => (List.mem_append.mp hc).elim (hbuffer.noEnd c) (hfirst c), ?_⟩
    rw [List.length_append]
    omega
  rw [List.length_append, List.length_cons] at hbound
  have hsplit : buffer ++ (before ++ b :: after) = buffer ++ before ++ [b] ++ after := by simp
  have htake : (buffer ++ before ++ [b]).length = limit := by simp; omega
  rw [singly_append, singly_short hfirst hbuffer (by omega), singly_cons, receive_full hfilled hb (by rw [List.length_append]; omega),
    singly_short hafter (open_nil hlimit) (by simp; omega), hsplit, List.take_left' htake, List.drop_left' htake]
  simp

lemma singly_kept (hlimit : 0 < limit) (hbuffer : Open limit buffer) (stream : Bytes) :
    (singly (receive limit) buffer stream).1.flatMap Line.bytes ++ (singly (receive limit) buffer stream).2 =
      buffer ++ stream.filter fun b => !isEnd b := by
  induction stream generalizing buffer with
  | nil => simp
  | cons b rest ih =>
    have hshort := hbuffer.short
    rw [singly_cons]
    cases hb : isEnd b with
    | true =>
      have hrest := ih (open_nil hlimit)
      rw [receive_end hbuffer hb]
      simp only [List.flatMap_append, List.append_assoc, hrest]
      simp [hb]
    | false =>
      by_cases hfull : buffer.length + 1 = limit
      · have hrest := ih (open_nil hlimit)
        rw [receive_full hbuffer hb hfull]
        simp only [List.flatMap_append, List.append_assoc, hrest]
        simp [hb]
      · have hrest := ih (⟨noEnd_concat hbuffer hb, by simp; omega⟩ : Open limit (buffer ++ [b]))
        rw [receive_byte hbuffer hb (by omega)]
        simp only [List.nil_append, hrest]
        simp [hb]

lemma endedRuns_run {n : ℕ} (hrun : ∀ c ∈ run, isEnd c = false) :
    endedRuns n (run ++ rest) = endedRuns (n + run.length) rest := by
  induction run generalizing n with
  | nil => rfl
  | cons c run ih =>
    obtain ⟨hc, hrest⟩ := List.forall_mem_cons.mp hrun
    rw [List.cons_append, endedRuns, hc, if_neg Bool.false_ne_true, ih hrest, List.length_cons, show n + 1 + run.length = n + (run.length + 1) by omega]

lemma endedRuns_end {n : ℕ} (hb : isEnd b = true) : endedRuns n (b :: rest) = n :: endedRuns 0 rest := by
  rw [endedRuns, if_pos hb]

/-- What is still to come, after some bytes of a line. -/
structure Good (limit : ℕ) (buffer stream : Bytes) : Prop where
  buffered : Open limit buffer
  apart : stream.IsChain fun a b => ¬ (isEnd a = true ∧ isEnd b = true)
  runs : ∃ q, ∀ m ∈ endedRuns (limit * q + buffer.length) stream, m < limit ∨ m % limit = limit - 1

lemma Good.next (hlimit : 0 < limit) (h : Good limit buffer (b :: rest)) :
    Good limit (receive limit buffer [b]).2 rest := by
  have hshort := h.buffered.short
  obtain ⟨q, hruns⟩ := h.runs
  refine ⟨receive_keeps h.buffered hlimit, h.apart.tail, ?_⟩
  cases hb : isEnd b with
  | true =>
    rw [endedRuns_end hb] at hruns
    rw [receive_end h.buffered hb]
    exact ⟨0, fun m hm => hruns m (List.mem_cons_of_mem _ (by simpa using hm))⟩
  | false =>
    rw [endedRuns, hb, if_neg Bool.false_ne_true] at hruns
    by_cases hfull : buffer.length + 1 = limit
    · rw [receive_full h.buffered hb hfull]
      have hsum : limit * (q + 1) + ([] : Bytes).length = limit * q + buffer.length + 1 := by
        rw [List.length_nil, Nat.mul_succ]
        omega
      exact ⟨q + 1, by rwa [hsum]⟩
    · rw [receive_byte h.buffered hb (by omega)]
      refine ⟨q, ?_⟩
      rwa [List.length_append, List.length_singleton, ← Nat.add_assoc]

lemma Good.after (hlimit : 0 < limit) {raw : Bytes} (h : Good limit buffer (raw ++ rest)) :
    Good limit (singly (receive limit) buffer raw).2 rest := by
  induction raw generalizing buffer with
  | nil => exact h
  | cons b raw ih =>
    rw [singly_cons]
    exact ih (h.next hlimit)

lemma Good.fits (h : Good limit buffer (run ++ b :: rest)) (hrun : ∀ c ∈ run, isEnd c = false)
    (hb : isEnd b = true) (hlength : run.length < limit) : buffer.length + run.length < limit := by
  have hshort := h.buffered.short
  obtain ⟨q, hruns⟩ := h.runs
  rw [endedRuns_run hrun, endedRuns_end hb] at hruns
  by_contra hge
  have hmod : (limit * q + buffer.length + run.length) % limit = buffer.length + run.length - limit := by
    have hsum : limit * q + buffer.length + run.length = limit * (q + 1) + (buffer.length + run.length - limit) := by
      rw [Nat.mul_succ]
      omega
    rw [hsum, Nat.mul_add_mod, Nat.mod_eq_of_lt (by omega)]
  cases hruns _ List.mem_cons_self with
  | inl hlt => omega
  | inr hlast => omega

lemma Good.splitBuffer_eq (hlimit : 0 < limit) {raw : Bytes} (h : Good limit buffer (raw ++ rest)) (hraw : raw.length ≤ limit) :
    splitBuffer limit (buffer ++ raw) = singly (receive limit) buffer raw := by
  induction hn : raw.length using Nat.strongRecOn generalizing buffer raw with
  | _ n ih =>
    have hshort := h.buffered.short
    cases run_cases raw with
    | inl hrun =>
      have hall : ∀ c ∈ buffer ++ raw, isEnd c = false := fun c hc => (List.mem_append.mp hc).elim (h.buffered.noEnd c) (hrun c)
      rw [splitBuffer_open hall, List.length_append]
      split
      · rename_i hlong
        exact (singly_long hlimit hrun h.buffered hlong (by omega)).symm
      · rename_i hlt
        exact (singly_short hrun h.buffered (by omega)).symm
    | inr hend =>
      obtain ⟨run, b, later, rfl, hrun, hb⟩ := hend
      rw [List.length_append, List.length_cons] at hn hraw
      have hgood : Good limit buffer (run ++ b :: (later ++ rest)) := by simpa using h
      have hfits := hgood.fits hrun hb (by omega)
      have hopen : Open limit (buffer ++ run) :=
        ⟨fun c hc => (List.mem_append.mp hc).elim (h.buffered.noEnd c) (hrun c), by rw [List.length_append]; exact hfits⟩
      have hone : singly (receive limit) buffer (run ++ [b]) = ([⟨buffer ++ run, false, true⟩], []) := by
        rw [singly_append, singly_short hrun h.buffered hfits, singly_cons, receive_end hopen hb]
        rfl
      have hlater : Good limit [] (later ++ rest) := by
        have hafter := (show Good limit buffer ((run ++ [b]) ++ (later ++ rest)) by simpa using h).after hlimit
        rwa [hone] at hafter
      have hskip : later.dropWhile isEnd = later := by
        cases later with
        | nil => rfl
        | cons c later =>
          have hc : isEnd c = false := by
            have hchain := hgood.apart.right_of_append
            rw [List.cons_append, List.isChain_cons_cons] at hchain
            simpa [hb] using hchain.1
          rw [List.dropWhile_cons_of_neg (by simp [hc])]
      rw [← List.append_assoc, splitBuffer_end hopen.noEnd hb, hskip, endedLine, if_neg (by rw [List.length_append]; omega),
        show run ++ b :: later = (run ++ [b]) ++ later by simp, singly_append, hone, ← ih _ (by omega) hlater (by omega) rfl]
      rfl

lemma Good.receive_eq (hlimit : 0 < limit) {raw : Bytes} (h : Good limit buffer (raw ++ rest)) (hraw : raw.length ≤ limit) :
    receive limit buffer raw = singly (receive limit) buffer raw := by
  rw [receive]
  split
  · rename_i hnil
    rw [hnil]
    rfl
  · exact h.splitBuffer_eq hlimit hraw

variable {reads : List Bytes}

lemma Good.feedAll_eq (hlimit : 0 < limit) (h : Good limit buffer reads.flatten) (hreads : ∀ raw ∈ reads, raw.length ≤ limit) :
    feedAll (receive limit) buffer reads = singly (receive limit) buffer reads.flatten :=
  @feedAll_eq_singly _ _ _ (receive limit) (fun raw => raw.length ≤ limit) (Good limit)
    (fun _ _ _ hraw hgood => ⟨hgood.receive_eq hlimit hraw, hgood.after hlimit⟩) buffer reads hreads h

variable {config : Config} {stream : Bytes}

lemma Config.pos (config : Config) : 0 < config.maxLineLength := by
  have h := config.least
  omega

lemma Steady.good (h : Steady config stream) : Good config.maxLineLength [] stream :=
  ⟨open_nil config.pos, h.apart, 0, h.runs⟩

lemma decodeErrors_feedAll (config : Config) (s : Runtime) (reads : List Bytes) :
    (feedAll (round config) s reads).2.metrics.decodeErrors = s.metrics.decodeErrors + (reads.map decodeErrorsOf).sum := by
  induction reads generalizing s with
  | nil => rfl
  | cons raw reads ih =>
    have hround : (round config s raw).2.metrics.decodeErrors = s.metrics.decodeErrors + decodeErrorsOf raw := by
      rw [round]
      split
      · rename_i hnil
        rw [hnil]
        rfl
      · rfl
    rw [feedAll, ih, hround, List.map_cons, List.sum_cons]
    omega

lemma session_decodeErrors (config : Config) (reads : List Bytes) :
    (session config reads).2.metrics.decodeErrors = (reads.map decodeErrorsOf).sum := by
  have h := decodeErrors_feedAll config start reads
  rw [show start.metrics.decodeErrors = 0 from rfl, Nat.zero_add] at h
  rw [← h]
  simp only [session, flushLineBuffer]
  split <;> rfl

lemma decodeErrorsOf_ascii {raw : Bytes} (h : ∀ b ∈ raw, b.toNat < 0x80) : decodeErrorsOf raw = 0 := by
  rw [decodeErrorsOf, Utf8.decode_ascii h, List.count_eq_zero]
  intro hmem
  obtain ⟨b, hb, heq⟩ := List.mem_map.mp hmem
  exact Utf8.ofNat_ne_replacement (h b hb) heq

lemma decodeErrorsOf_single (h : 0x80 ≤ b.toNat) : decodeErrorsOf [b] = 1 := by
  rw [decodeErrorsOf, Utf8.decode_single h]
  rfl

def flushed (buffer : Bytes) : List Line := if buffer = [] then [] else [⟨buffer, false, false⟩]

lemma flushed_bytes (buffer : Bytes) : (flushed buffer).flatMap Line.bytes = buffer := by
  rw [flushed]
  split
  · rename_i hnil
    rw [hnil]
    rfl
  · simp

lemma Steady.session_eq (h : Steady config stream) (hreads : Arrives config stream reads) :
    (session config reads).1 = (singly (receive config.maxLineLength) [] stream).1 ++
      flushed (singly (receive config.maxLineLength) [] stream).2 := by
  have hgood : Good config.maxLineLength [] reads.flatten := by
    rw [hreads.whole]
    exact h.good
  rw [session_lines, hgood.feedAll_eq config.pos hreads.short, hreads.whole]
  rfl

lemma bounded_of_arrives {sofar : List Bytes} (hreads : Arrives config stream reads) (hsofar : sofar <+: reads) :
    (feedAll (round config) start sofar).2.lineBuffer.length < config.maxLineLength := by
  have hshort : ∀ raw ∈ sofar, raw.length ≤ config.maxLineLength := fun raw hraw => hreads.short raw (hsofar.subset hraw)
  have hopen : Open config.maxLineLength (feedAll (receive config.maxLineLength) [] sofar).2 :=
    @feedAll_keeps _ _ _ (receive config.maxLineLength) (fun raw => raw.length ≤ config.maxLineLength) (Open config.maxLineLength)
      (fun _ _ hraw hs => receive_keeps hs hraw) [] sofar hshort (open_nil config.pos)
  have hpart := feedAll_round config start sofar
  rw [show start.lineBuffer = [] from rfl] at hpart
  rw [hpart] at hopen
  exact hopen.short

lemma Steady.independent (h : Steady config stream) : Independent config stream := by
  refine ⟨fun reads others hreads hothers => ?_, fun reads hreads => ?_, fun hvalid reads hreads => ?_, fun reads hreads sofar hsofar => ?_⟩
  · rw [h.session_eq hreads, h.session_eq hothers]
  · rw [h.session_eq hreads, List.flatMap_append, flushed_bytes, singly_kept config.pos (open_nil config.pos)]
    rfl
  · rw [session_decodeErrors, List.sum_eq_zero_iff_forall_eq_nat]
    intro n hn
    obtain ⟨raw, hraw, rfl⟩ := List.mem_map.mp hn
    refine decodeErrorsOf_ascii fun b hb => h.ascii hvalid b ?_
    rw [← hreads.whole]
    exact List.mem_flatten_of_mem hraw hb
  · exact bounded_of_arrives hreads hsofar

def singles (stream : Bytes) : List Bytes := stream.map fun b => [b]

lemma arrives_singles {before middle after : Bytes} (hmiddle : Arrives config middle reads) :
    Arrives config (before ++ (middle ++ after)) (singles before ++ (reads ++ singles after)) := by
  have hsingle : ∀ stream : Bytes, ∀ raw ∈ singles stream, raw.length ≤ config.maxLineLength := by
    intro stream raw hraw
    obtain ⟨b, -, rfl⟩ := List.mem_map.mp hraw
    exact config.pos
  refine ⟨?_, fun raw hraw => ?_⟩
  · simp only [List.flatten_append, singles, flatten_singles, hmiddle.whole]
  · rw [List.mem_append, List.mem_append] at hraw
    obtain hraw | hraw | hraw := hraw
    · exact hsingle before raw hraw
    · exact hmiddle.short raw hraw
    · exact hsingle after raw hraw

lemma session_split {before after : Bytes}
    (hempty : (feedAll (receive config.maxLineLength) (singly (receive config.maxLineLength) [] before).2 reads).2 = []) :
    (session config (singles before ++ (reads ++ singles after))).1 =
      (singly (receive config.maxLineLength) [] before).1 ++
        ((feedAll (receive config.maxLineLength) (singly (receive config.maxLineLength) [] before).2 reads).1 ++
          ((singly (receive config.maxLineLength) [] after).1 ++ flushed (singly (receive config.maxLineLength) [] after).2)) := by
  have hbefore : feedAll (receive config.maxLineLength) [] (singles before) = singly (receive config.maxLineLength) [] before := rfl
  have hafter : feedAll (receive config.maxLineLength) [] (singles after) = singly (receive config.maxLineLength) [] after := rfl
  rw [session_lines, feedAll_append, feedAll_append, hbefore, hempty, hafter]
  simp only [List.append_assoc]
  rfl

lemma Independent.same_count (h : Independent config stream) (before middle after : Bytes) (reads others : List Bytes)
    (hstream : stream = before ++ (middle ++ after)) (hreads : Arrives config middle reads) (hothers : Arrives config middle others)
    (hempty : (feedAll (receive config.maxLineLength) (singly (receive config.maxLineLength) [] before).2 reads).2 = [])
    (hempty' : (feedAll (receive config.maxLineLength) (singly (receive config.maxLineLength) [] before).2 others).2 = []) :
    (feedAll (receive config.maxLineLength) (singly (receive config.maxLineLength) [] before).2 reads).1.length =
      (feedAll (receive config.maxLineLength) (singly (receive config.maxLineLength) [] before).2 others).1.length := by
  subst hstream
  have hsame := congrArg List.length (h.same _ _ (arrives_singles hreads) (arrives_singles hothers))
  rw [List.length_map, List.length_map, session_split hempty, session_split hempty'] at hsame
  simp only [List.length_append] at hsame
  omega

lemma Independent.apart (h : Independent config stream) : stream.IsChain fun a b => ¬ (isEnd a = true ∧ isEnd b = true) := by
  rw [List.isChain_iff_forall_rel_of_append_cons_cons]
  rintro a b before after hstream ⟨ha, hb⟩
  have hleast := config.least
  have hopen := singly_keeps config.pos (open_nil config.pos) before
  have htwo : feedAll (receive config.maxLineLength) (singly (receive config.maxLineLength) [] before).2 [[a], [b]] =
      ([⟨(singly (receive config.maxLineLength) [] before).2, false, true⟩, ⟨[], false, true⟩], []) := by
    rw [feedAll, receive_end hopen ha, feedAll, receive_end (open_nil config.pos) hb]
    rfl
  have hone : feedAll (receive config.maxLineLength) (singly (receive config.maxLineLength) [] before).2 [[a, b]] =
      ([⟨(singly (receive config.maxLineLength) [] before).2, false, true⟩], []) := by
    have hshort := hopen.short
    rw [feedAll, receive, if_neg (List.cons_ne_nil _ _), splitBuffer_end hopen.noEnd ha, endedLine, if_neg (by omega),
      List.dropWhile_cons_of_pos hb, List.dropWhile_nil, splitBuffer_open (by simp), if_neg (by simp only [List.length_nil]; omega)]
    rfl
  have hcount := h.same_count before [a, b] after [[a], [b]] [[a, b]] (by simpa using hstream)
    ⟨rfl, by simp; omega⟩ ⟨rfl, by simp; omega⟩ (by rw [htwo]) (by rw [hone])
  rw [htwo, hone] at hcount
  cases hcount

lemma mem_endedRuns {n m : ℕ} (h : m ∈ endedRuns n stream) :
    (∃ run b after, stream = run ++ b :: after ∧ (∀ c ∈ run, isEnd c = false) ∧ isEnd b = true ∧ m = n + run.length) ∨
      ∃ before e run b after, stream = before ++ [e] ++ (run ++ b :: after) ∧ isEnd e = true ∧ (∀ c ∈ run, isEnd c = false) ∧
        isEnd b = true ∧ m = run.length := by
  induction stream generalizing n with
  | nil => cases h
  | cons c rest ih =>
    cases hc : isEnd c with
    | true =>
      rw [endedRuns_end hc] at h
      cases List.mem_cons.mp h with
      | inl heq => exact .inl ⟨[], c, rest, rfl, by simp, hc, heq⟩
      | inr hlater =>
        cases ih hlater with
        | inl hfirst =>
          obtain ⟨run, b, after, rfl, hrun, hb, hm⟩ := hfirst
          exact .inr ⟨[], c, run, b, after, rfl, hc, hrun, hb, by omega⟩
        | inr hnext =>
          obtain ⟨before, e, run, b, after, rfl, he, hrun, hb, hm⟩ := hnext
          exact .inr ⟨c :: before, e, run, b, after, rfl, he, hrun, hb, hm⟩
    | false =>
      rw [endedRuns, hc, if_neg Bool.false_ne_true] at h
      cases ih h with
      | inl hfirst =>
        obtain ⟨run, b, after, rfl, hrun, hb, hm⟩ := hfirst
        exact .inl ⟨c :: run, b, after, rfl, List.forall_mem_cons.mpr ⟨hc, hrun⟩, hb, by rw [List.length_cons]; omega⟩
      | inr hnext =>
        obtain ⟨before, e, run, b, after, rfl, he, hrun, hb, hm⟩ := hnext
        exact .inr ⟨c :: before, e, run, b, after, rfl, he, hrun, hb, hm⟩

lemma exists_line (hlimit : 0 < limit) {m : ℕ} (h : m ∈ endedRuns 0 stream) : ∃ before run b after,
    stream = before ++ (run ++ b :: after) ∧ (singly (receive limit) [] before).2 = [] ∧ (∀ c ∈ run, isEnd c = false) ∧
      isEnd b = true ∧ m = run.length := by
  cases mem_endedRuns h with
  | inl hfirst =>
    obtain ⟨run, b, after, rfl, hrun, hb, hm⟩ := hfirst
    exact ⟨[], run, b, after, rfl, rfl, hrun, hb, by omega⟩
  | inr hnext =>
    obtain ⟨before, e, run, b, after, rfl, he, hrun, hb, hm⟩ := hnext
    refine ⟨before ++ [e], run, b, after, rfl, ?_, hrun, hb, hm⟩
    rw [singly_append, singly_cons, receive_end (singly_keeps hlimit (open_nil hlimit) before) he]
    rfl

lemma length_singly (hlimit : 0 < limit) (hrun : ∀ c ∈ run, isEnd c = false) (hbuffer : Open limit buffer) :
    (singly (receive limit) buffer run).2.length = (buffer.length + run.length) % limit := by
  induction run generalizing buffer with
  | nil => exact (Nat.mod_eq_of_lt hbuffer.short).symm
  | cons b run ih =>
    have hshort := hbuffer.short
    obtain ⟨hb, hrest⟩ := List.forall_mem_cons.mp hrun
    rw [singly_cons, List.length_cons]
    by_cases hfull : buffer.length + 1 = limit
    · rw [receive_full hbuffer hb hfull, ih hrest (open_nil hlimit), List.length_nil, Nat.zero_add,
        show buffer.length + (run.length + 1) = limit + run.length by omega, Nat.add_mod_left]
    · rw [receive_byte hbuffer hb (by omega), ih hrest ⟨noEnd_concat hbuffer hb, by simp; omega⟩, List.length_append, List.length_singleton,
        show buffer.length + (run.length + 1) = buffer.length + 1 + run.length by omega]

lemma fill_apart (hbuffer : Open limit buffer) (hfill : buffer.length + 1 = limit) {back : Bytes}
    (hback : ∀ c ∈ back, isEnd c = false) (hne : 0 < back.length) (hshort : back.length ≤ limit) (hb : isEnd b = true) :
    ∃ x y, singly (receive limit) buffer (back ++ [b]) = ([x, y], []) := by
  have hpos : 0 < limit := by omega
  cases back with
  | nil => cases hne
  | cons c back =>
    obtain ⟨hc, hrest⟩ := List.forall_mem_cons.mp hback
    rw [List.length_cons] at hshort
    have hopen : Open limit back := ⟨hrest, by omega⟩
    have hlater : singly (receive limit) [] (back ++ [b]) = ([⟨back, false, true⟩], []) := by
      rw [singly_append, singly_short hrest (open_nil hpos) (by rw [List.length_nil]; omega)]
      simp only [List.nil_append]
      rw [singly_cons, receive_end hopen hb]
      rfl
    rw [List.cons_append, singly_cons, receive_full hbuffer hc hfill, hlater]
    exact ⟨_, _, rfl⟩

lemma fill_together (hbuffer : Open limit buffer) {back : Bytes} (hback : ∀ c ∈ back, isEnd c = false) (hb : isEnd b = true) :
    ∃ z, feedAll (receive limit) buffer [back ++ [b]] = ([z], []) := by
  have hall : ∀ c ∈ buffer ++ back, isEnd c = false := fun c hc => (List.mem_append.mp hc).elim (hbuffer.noEnd c) (hback c)
  have hshort := hbuffer.short
  rw [feedAll, receive, if_neg (by simp), ← List.append_assoc, splitBuffer_end hall hb, List.dropWhile_nil, splitBuffer_open (by simp),
    if_neg (by simp only [List.length_nil]; omega)]
  exact ⟨_, rfl⟩

lemma Independent.runs (h : Independent config stream) :
    ∀ n ∈ endedRuns 0 stream, n < config.maxLineLength ∨ n % config.maxLineLength = config.maxLineLength - 1 := by
  intro n hn
  by_contra hnot
  obtain ⟨hge, hmod⟩ := not_or.mp hnot
  have hpos := config.pos
  have hleft := Nat.mod_lt n hpos
  obtain ⟨before, run, b, after, hstream, hempty, hrun, hb, rfl⟩ := exists_line hpos hn
  -- all of the line but what is left after its last whole buffer, and one byte more
  have hsplit := List.take_append_drop (run.length - (run.length % config.maxLineLength + 1)) run
  have htail : (run.drop (run.length - (run.length % config.maxLineLength + 1))).length = run.length % config.maxLineLength + 1 := by
    rw [List.length_drop]
    omega
  have hhead : (run.take (run.length - (run.length % config.maxLineLength + 1))).length = run.length - (run.length % config.maxLineLength + 1) := by
    rw [List.length_take]
    omega
  generalize run.take (run.length - (run.length % config.maxLineLength + 1)) = front at hsplit hhead
  generalize run.drop (run.length - (run.length % config.maxLineLength + 1)) = back at hsplit htail
  have hfront : ∀ c ∈ front, isEnd c = false := fun c hc => hrun c (by rw [← hsplit]; exact List.mem_append_left _ hc)
  have hback : ∀ c ∈ back, isEnd c = false := fun c hc => hrun c (by rw [← hsplit]; exact List.mem_append_right _ hc)
  have hopen := singly_keeps hpos (open_nil hpos) (before ++ front)
  have hfill : (singly (receive config.maxLineLength) [] (before ++ front)).2.length = config.maxLineLength - 1 := by
    have hdiv := Nat.div_add_mod run.length config.maxLineLength
    have hquot : 0 < run.length / config.maxLineLength := Nat.div_pos (by omega) hpos
    have hlength : front.length = config.maxLineLength * (run.length / config.maxLineLength - 1) + (config.maxLineLength - 1) := by
      rw [Nat.mul_sub, Nat.mul_one]
      have hle := Nat.le_mul_of_pos_right config.maxLineLength hquot
      omega
    rw [singly_append, hempty, length_singly hpos hfront (open_nil hpos), List.length_nil, Nat.zero_add, hlength, Nat.mul_add_mod,
      Nat.mod_eq_of_lt (by omega)]
  have hleast := config.least
  have hcut : stream = (before ++ front) ++ ((back ++ [b]) ++ after) := by
    rw [hstream, ← hsplit]
    simp
  obtain ⟨x, y, hapart⟩ := fill_apart hopen (by omega) hback (by omega) (by omega) hb
  obtain ⟨z, htogether⟩ := fill_together hopen hback hb
  have hsingles : Arrives config (back ++ [b]) (singles (back ++ [b])) :=
    ⟨flatten_singles _, fun raw hraw => by
      obtain ⟨c, -, rfl⟩ := List.mem_map.mp hraw
      exact hpos⟩
  have hone : Arrives config (back ++ [b]) [back ++ [b]] := ⟨by simp, fun raw hraw => by
    rw [List.mem_singleton.mp hraw, List.length_append, List.length_singleton]
    omega⟩
  have hsingly : feedAll (receive config.maxLineLength) (singly (receive config.maxLineLength) [] (before ++ front)).2
      (singles (back ++ [b])) = ([x, y], []) := hapart
  have hcount := h.same_count (before ++ front) (back ++ [b]) after _ _ hcut hsingles hone (by rw [hsingly]) (by rw [htogether])
  rw [hsingly, htogether] at hcount
  cases hcount

lemma Independent.ascii (h : Independent config stream) (hvalid : Valid stream) : ∀ b ∈ stream, b.toNat < 0x80 := by
  intro b hb
  by_contra hge
  have hpos := config.pos
  have hsingles : Arrives config stream (singles stream) :=
    ⟨flatten_singles _, fun raw hraw => by
      obtain ⟨c, -, rfl⟩ := List.mem_map.mp hraw
      exact hpos⟩
  have hzero := h.noErrors hvalid _ hsingles
  rw [session_decodeErrors, List.sum_eq_zero_iff_forall_eq_nat] at hzero
  have hone := hzero (decodeErrorsOf [b]) (List.mem_map_of_mem (List.mem_map_of_mem hb))
  rw [decodeErrorsOf_single (by omega)] at hone
  cases hone

/-- The lines of a stream do not depend on its reads exactly where the stream is steady. -/
theorem independent_iff (config : Config) (stream : Bytes) : Independent config stream ↔ Steady config stream :=
  ⟨fun h => ⟨h.apart, h.runs, h.ascii⟩, Steady.independent⟩

/-- The end of a line as a terminal sends it, in one read and in two. -/
theorem crlf_dependent : ¬ ∀ (config : Config) (stream : Bytes), Independent config stream := by
  intro hclaim
  have hchain := (hclaim ⟨4096, by decide⟩ [13, 10]).apart
  rw [List.isChain_cons_cons] at hchain
  exact hchain.1 ⟨rfl, rfl⟩

end PromptForge.SerialLines
