import Agentbox.Runtime.HttpProbe

/-! # Chunks of an HTTP response

A stream that delivers a response in chunks. What is read of it is what the whole response says,
except where a chunk goes beyond 64 KiB before the end of the part that decides. -/

namespace Agentbox.Runtime.HttpChunks

open Agentbox.Runtime.HttpProbe

/-- The stream that answers each read with a chunk, and then ends. -/
def deliver (chunks : List (List UInt8)) : Stream := fun i => .bytes (chunks.getD i [])

/-- What is read after a number of chunks. -/
def buffer (chunks : List (List UInt8)) (k : Nat) : List UInt8 := (chunks.take k).flatten

def readerAt (chunks : List (List UInt8)) (k : Nat) : HttpResponseReader := ⟨k, buffer chunks k⟩

/-- The response that the whole sequence of bytes is. -/
def responseOf (l : List UInt8) : Except HttpProbeError HttpResponse :=
  match httpBodyStart (l.take MAX_HTTP_RESPONSE_BYTES) with
  | none =>
    .error (if MAX_HTTP_RESPONSE_BYTES < l.length then .responseTooLarge
      else .responseHeadersUnavailable)
  | some bodyStart =>
    match parseHttpResponseHeaders (l.take bodyStart) with
    | .error e => .error e
    | .ok (statusCode, some n) =>
      if MAX_HTTP_RESPONSE_BYTES < bodyStart + n then .error .responseTooLarge
      else if l.length < bodyStart + n then .error .responseBodyIncomplete
      else .ok ⟨statusCode, (l.drop bodyStart).take n⟩
    | .ok (statusCode, none) =>
      if MAX_HTTP_RESPONSE_BYTES < l.length then .error .responseTooLarge
      else .ok ⟨statusCode, l.drop bodyStart⟩

/-- Where the part of the bytes ends that decides the response, where a part does. -/
def decidingLength (l : List UInt8) : Option Nat :=
  match httpBodyStart (l.take MAX_HTTP_RESPONSE_BYTES) with
  | none => none
  | some bodyStart =>
    match parseHttpResponseHeaders (l.take bodyStart) with
    | .error _ => some bodyStart
    | .ok (_, some n) =>
      if MAX_HTTP_RESPONSE_BYTES < bodyStart + n then none else some (bodyStart + n)
    | .ok (_, none) => none

/-- A chunk ends between the end of the deciding part and the limit, if anything is beyond it. -/
def IsReadInTime (chunks : List (List UInt8)) : Prop :=
  chunks.flatten.length ≤ MAX_HTTP_RESPONSE_BYTES ∨
    ∀ t, decidingLength chunks.flatten = some t → ∃ k ≤ chunks.length,
      t ≤ (buffer chunks k).length ∧ (buffer chunks k).length ≤ MAX_HTTP_RESPONSE_BYTES

/-! ### The end of the headers -/

theorem four_le_httpBodyStart : ∀ {l : List UInt8} {n : Nat}, httpBodyStart l = some n → 4 ≤ n
  | [], _, h => by simp [httpBodyStart] at h
  | b :: l, n, h => by
    rw [httpBodyStart] at h
    split_ifs at h
    · exact (Option.some.inj h).le
    · obtain ⟨m, hm, rfl⟩ := Option.map_eq_some_iff.1 h
      have ih := four_le_httpBodyStart hm
      omega

/-- The headers end in a part of the response where they end in the whole of it. -/
theorem httpBodyStart_take_iff : ∀ {l : List UInt8} {n k : Nat},
    httpBodyStart (l.take n) = some k ↔ httpBodyStart l = some k ∧ k ≤ n
  | [], n, k => by simp [httpBodyStart]
  | b :: l, 0, k => by
    rw [List.take_zero]
    refine iff_of_false (by simp [httpBodyStart]) ?_
    rintro ⟨h, hk⟩
    have hfour := four_le_httpBodyStart h
    omega
  | b :: l, n + 1, k => by
    have hpre : (CRLF ++ CRLF).isPrefixOf (b :: l.take n) = true ↔
        (CRLF ++ CRLF).isPrefixOf (b :: l) = true ∧ 4 ≤ n + 1 := by
      rw [List.isPrefixOf_iff_prefix, List.isPrefixOf_iff_prefix, ← List.take_succ_cons,
        List.prefix_take_iff]
      rfl
    rw [List.take_succ_cons, httpBodyStart, httpBodyStart]
    by_cases hfirst : (CRLF ++ CRLF).isPrefixOf (b :: l) = true
    · by_cases hn : 4 ≤ n + 1
      · rw [if_pos (hpre.2 ⟨hfirst, hn⟩), if_pos hfirst, Option.some.injEq]
        omega
      · rw [if_neg (fun h => hn (hpre.1 h).2), if_pos hfirst, Option.map_eq_some_iff,
          Option.some.injEq]
        refine iff_of_false ?_ (by omega)
        rintro ⟨m, hm, rfl⟩
        have hfour := four_le_httpBodyStart hm
        have hle := (httpBodyStart_take_iff.1 hm).2
        omega
    · rw [if_neg (fun h => hfirst (hpre.1 h).1), if_neg hfirst, Option.map_eq_some_iff,
        Option.map_eq_some_iff]
      constructor
      · rintro ⟨m, hm, rfl⟩
        obtain ⟨hl, hle⟩ := httpBodyStart_take_iff.1 hm
        exact ⟨⟨m, hl, rfl⟩, by omega⟩
      · rintro ⟨⟨m, hm, rfl⟩, hle⟩
        exact ⟨m, httpBodyStart_take_iff.2 ⟨hm, by omega⟩, rfl⟩

theorem httpBodyStart_le {l : List UInt8} {k : Nat} (h : httpBodyStart l = some k) :
    k ≤ l.length := by
  rw [← List.take_length (l := l)] at h
  exact (httpBodyStart_take_iff.1 h).2

/-! ### Chunks -/

variable {chunks : List (List UInt8)}

theorem buffer_zero (chunks : List (List UInt8)) : buffer chunks 0 = [] := rfl

theorem buffer_length (chunks : List (List UInt8)) :
    buffer chunks chunks.length = chunks.flatten := by
  rw [buffer, List.take_length]

theorem buffer_succ {k : Nat} (h : k < chunks.length) :
    buffer chunks (k + 1) = buffer chunks k ++ chunks[k] := by
  rw [buffer, List.take_succ_eq_append_getElem h, List.flatten_append, List.flatten_singleton]
  rfl

theorem buffer_prefix_flatten (chunks : List (List UInt8)) (k : Nat) :
    buffer chunks k <+: chunks.flatten := by
  refine ⟨(chunks.drop k).flatten, ?_⟩
  rw [buffer, ← List.flatten_append, List.take_append_drop]

theorem buffer_eq_take (chunks : List (List UInt8)) (k : Nat) :
    buffer chunks k = chunks.flatten.take (buffer chunks k).length :=
  List.prefix_iff_eq_take.1 (buffer_prefix_flatten chunks k)

theorem length_buffer_mono (chunks : List (List UInt8)) {j k : Nat} (h : j ≤ k) :
    (buffer chunks j).length ≤ (buffer chunks k).length := by
  have hsplit : chunks.take j <+: chunks.take k := List.take_prefix_take_left h
  obtain ⟨t, ht⟩ := hsplit
  rw [buffer, buffer, ← ht, List.flatten_append, List.length_append]
  omega

theorem length_buffer_le (chunks : List (List UInt8)) (k : Nat) :
    (buffer chunks k).length ≤ chunks.flatten.length := (buffer_prefix_flatten chunks k).length_le

/-- The first chunk that reaches a length. -/
theorem exists_first {t : Nat} (h : t ≤ chunks.flatten.length) :
    ∃ k ≤ chunks.length, t ≤ (buffer chunks k).length ∧
      ∀ j < k, (buffer chunks j).length < t := by
  have hex : ∃ k, t ≤ (buffer chunks k).length := ⟨chunks.length, by rwa [buffer_length]⟩
  refine ⟨Nat.find hex, ?_, Nat.find_spec hex, fun j hj => ?_⟩
  · refine Nat.find_min' hex ?_
    rwa [buffer_length]
  · have hnot := Nat.find_min hex hj
    omega

/-! ### Reading chunks -/

variable (hne : ∀ c ∈ chunks, c ≠ [])

include hne in
theorem readChunk_deliver {k : Nat} (h : k < chunks.length) :
    readChunk (deliver chunks) (readerAt chunks k) =
      if MAX_HTTP_RESPONSE_BYTES < (buffer chunks (k + 1)).length then .error .responseTooLarge
      else .ok (.data, readerAt chunks (k + 1)) := by
  have hchunk : chunks.getD k [] = chunks[k] := by
    rw [List.getD_eq_getElem?_getD, List.getElem?_eq_getElem h]
    rfl
  unfold readChunk
  rcases hc : chunks[k] with _ | ⟨b, l⟩
  · exact absurd hc (hne _ (List.getElem_mem h))
  · simp only [readerAt, deliver, hchunk, hc, buffer_succ h, List.length_append]
    rfl

theorem readChunk_deliver_end (chunks : List (List UInt8)) :
    readChunk (deliver chunks) (readerAt chunks chunks.length) =
      .ok (.end, ⟨chunks.length + 1, chunks.flatten⟩) := by
  have hchunk : chunks.getD chunks.length [] = [] := by
    rw [List.getD_eq_getElem?_getD, List.getElem?_length]
    rfl
  unfold readChunk
  simp only [readerAt, deliver, hchunk, buffer_length]

variable {grow : List UInt8 → Bool}

include hne in
/-- Chunks that leave the response short are read one after the other. -/
theorem readWhile_steps {k j : Nat} (hkj : k ≤ j) (hj : j ≤ chunks.length)
    (h : ∀ i, k ≤ i → i < j → grow (buffer chunks i) = true)
    (hle : (buffer chunks j).length ≤ MAX_HTTP_RESPONSE_BYTES) :
    readWhile (deliver chunks) grow (readerAt chunks k) =
      readWhile (deliver chunks) grow (readerAt chunks j) := by
  induction j, hkj using Nat.le_induction with
  | base => rfl
  | succ j hkj ih =>
    have hmono := length_buffer_mono chunks (Nat.le_succ j)
    have hchunk := readChunk_deliver hne (k := j) (by omega)
    rw [if_neg (by omega)] at hchunk
    rw [ih (by omega) (fun i hi hij => h i hi (by omega)) (hmono.trans hle)]
    exact readWhile_data (h j hkj (by omega)) hchunk

/-- What comes of reading on, where `t` bytes are enough. -/
inductive Outcome (chunks : List (List UInt8)) (grow : List UInt8 → Bool) (k t : Nat) : Prop
  | enough (j : Nat) (hkj : k ≤ j) (hj : j ≤ chunks.length) (ht : t ≤ (buffer chunks j).length)
      (hle : (buffer chunks j).length ≤ MAX_HTTP_RESPONSE_BYTES)
      (h : readWhile (deliver chunks) grow (readerAt chunks k) = .ok (true, readerAt chunks j))
  | ended (hle : chunks.flatten.length ≤ MAX_HTTP_RESPONSE_BYTES) (ht : chunks.flatten.length < t)
      (h : readWhile (deliver chunks) grow (readerAt chunks k) =
        .ok (false, ⟨chunks.length + 1, chunks.flatten⟩))
  | tooLarge (hlarge : MAX_HTTP_RESPONSE_BYTES < chunks.flatten.length)
      (hskip : ∀ j ≤ chunks.length, t ≤ (buffer chunks j).length →
        MAX_HTTP_RESPONSE_BYTES < (buffer chunks j).length)
      (h : readWhile (deliver chunks) grow (readerAt chunks k) = .error .responseTooLarge)

include hne in
/-- Reading goes on until the response has `t` bytes, the stream ends, or the limit is passed. -/
theorem readWhile_deliver {k t : Nat} (hk : k ≤ chunks.length)
    (hgrow : ∀ i, grow (buffer chunks i) = true ↔ (buffer chunks i).length < t)
    (hle : (buffer chunks k).length ≤ MAX_HTTP_RESPONSE_BYTES) :
    Outcome chunks grow k t := by
  -- the first chunk that reaches `t` bytes or goes beyond the limit
  by_cases hall : ∃ j, k ≤ j ∧ j ≤ chunks.length ∧ (t ≤ (buffer chunks j).length ∨
      MAX_HTTP_RESPONSE_BYTES < (buffer chunks j).length)
  · have hfirst := Nat.find_spec hall
    have hbefore : ∀ i, k ≤ i → i < Nat.find hall → (buffer chunks i).length < t ∧
        (buffer chunks i).length ≤ MAX_HTTP_RESPONSE_BYTES := by
      intro i hi hlt
      have hnot := Nat.find_min hall hlt
      simp only [not_and, not_or] at hnot
      obtain ⟨ht, hmax⟩ := hnot hi (by omega)
      omega
    generalize Nat.find hall = j at hfirst hbefore
    obtain ⟨hkj, hj, hcase⟩ := hfirst
    by_cases hmax : (buffer chunks j).length ≤ MAX_HTTP_RESPONSE_BYTES
    · have ht : t ≤ (buffer chunks j).length := by omega
      have hsteps := readWhile_steps hne hkj hj (fun i hi hij => (hgrow i).2 (hbefore i hi hij).1)
        hmax
      have hstop : grow (buffer chunks j) = false := by
        rw [Bool.eq_false_iff]
        intro h
        have hlt := (hgrow j).1 h
        omega
      exact .enough j hkj hj ht hmax (hsteps.trans (readWhile_stop hstop))
    · obtain ⟨m, rfl⟩ : ∃ m, j = m + 1 := ⟨j - 1, by
        have hjk : j ≠ k := fun h => hmax (h ▸ hle)
        omega⟩
      have hkm : k ≤ m := by
        have hmk : m + 1 ≠ k := fun h => hmax (h ▸ hle)
        omega
      obtain ⟨hshort, hfits⟩ := hbefore m hkm (by omega)
      have hsteps := readWhile_steps hne hkm (by omega)
        (fun i hi hij => (hgrow i).2 (hbefore i hi (by omega)).1) hfits
      have hchunk := readChunk_deliver hne (k := m) (by omega)
      rw [if_pos (by omega)] at hchunk
      refine .tooLarge ?_ ?_ (hsteps.trans (readWhile_error ((hgrow m).2 hshort) hchunk))
      · have hle' := length_buffer_le chunks (m + 1)
        omega
      · intro i _ ht
        by_cases him : i ≤ m
        · have hmono := length_buffer_mono chunks him
          omega
        · have hmono := length_buffer_mono chunks (show m + 1 ≤ i by omega)
          omega
  · have hshort : ∀ i, k ≤ i → i ≤ chunks.length → (buffer chunks i).length < t ∧
        (buffer chunks i).length ≤ MAX_HTTP_RESPONSE_BYTES := by
      intro i hi hlen
      by_contra hnot
      exact hall ⟨i, hi, hlen, by omega⟩
    obtain ⟨ht, hmax⟩ := hshort _ hk le_rfl
    have hsteps := readWhile_steps hne hk le_rfl
      (fun i hi hij => (hgrow i).2 (hshort i hi (by omega)).1) hmax
    have hend := readWhile_end (r := readerAt chunks chunks.length) ((hgrow _).2 ht)
      (readChunk_deliver_end chunks)
    rw [buffer_length] at ht hmax
    exact .ended hmax ht (hsteps.trans hend)

/-! ### Reading a response -/

theorem httpBodyStart_buffer_iff {bodyStart i : Nat} :
    httpBodyStart (buffer chunks i) = some bodyStart ↔
      httpBodyStart chunks.flatten = some bodyStart ∧ bodyStart ≤ (buffer chunks i).length := by
  rw [buffer_eq_take, httpBodyStart_take_iff, ← buffer_eq_take]

/-- The headers are read until they end, which is where they end in the whole response. -/
theorem grow_headers (i : Nat) : (httpBodyStart (buffer chunks i)).isNone = true ↔
    (buffer chunks i).length <
      (httpBodyStart chunks.flatten).getD (chunks.flatten.length + 1) := by
  have hle := length_buffer_le chunks i
  rw [Option.isNone_iff_eq_none, Option.eq_none_iff_forall_ne_some]
  rcases hwhole : httpBodyStart chunks.flatten with _ | bodyStart
  · rw [Option.getD_none]
    refine iff_of_true (fun k hk => ?_) (by omega)
    rw [httpBodyStart_buffer_iff, hwhole] at hk
    cases hk.1
  · rw [Option.getD_some]
    constructor
    · intro h
      by_contra hreach
      exact h bodyStart (httpBodyStart_buffer_iff.2 ⟨hwhole, by omega⟩)
    · intro hlt k hk
      obtain ⟨hk, hreach⟩ := httpBodyStart_buffer_iff.1 hk
      rw [hwhole] at hk
      obtain rfl := Option.some.inj hk
      omega

include hne in
theorem readHeaders_none
    (h : httpBodyStart (chunks.flatten.take MAX_HTTP_RESPONSE_BYTES) = none) :
    readHeaders (deliver chunks) ⟨0, []⟩ =
      .error (if MAX_HTTP_RESPONSE_BYTES < chunks.flatten.length then .responseTooLarge
        else .responseHeadersUnavailable) := by
  have hno : ∀ k ≤ MAX_HTTP_RESPONSE_BYTES, httpBodyStart chunks.flatten ≠ some k := by
    intro k hk hsome
    rw [httpBodyStart_take_iff.2 ⟨hsome, hk⟩] at h
    cases h
  change (readWhile (deliver chunks) _ (readerAt chunks 0) >>= _) = _
  rcases @readWhile_deliver chunks hne (fun l => (httpBodyStart l).isNone) 0 _ (Nat.zero_le _)
      grow_headers (by simp [buffer_zero]) with
    ⟨j, -, -, ht, hle, -⟩ | ⟨hle, ht, hread⟩ | ⟨hlarge, -, hread⟩
  · rcases hwhole : httpBodyStart chunks.flatten with _ | k
    · rw [hwhole, Option.getD_none] at ht
      have hlen := length_buffer_le chunks j
      omega
    · rw [hwhole, Option.getD_some] at ht
      exact absurd hwhole (hno k (ht.trans hle))
  · have hnone : httpBodyStart chunks.flatten = none := by
      rcases hwhole : httpBodyStart chunks.flatten with _ | k
      · rfl
      · exact absurd hwhole (hno k ((httpBodyStart_le hwhole).trans hle))
    rw [hread, if_neg (by omega)]
    simp only [bind, Except.bind, hnone]
    rfl
  · rw [hread, if_pos hlarge]
    rfl

include hne in
theorem readHeaders_some {bodyStart : Nat}
    (h : httpBodyStart chunks.flatten = some bodyStart) :
    (∃ j ≤ chunks.length, bodyStart ≤ (buffer chunks j).length ∧
        (buffer chunks j).length ≤ MAX_HTTP_RESPONSE_BYTES ∧
        readHeaders (deliver chunks) ⟨0, []⟩ = .ok (bodyStart, readerAt chunks j)) ∨
      MAX_HTTP_RESPONSE_BYTES < chunks.flatten.length ∧
        (∀ j ≤ chunks.length, bodyStart ≤ (buffer chunks j).length →
          MAX_HTTP_RESPONSE_BYTES < (buffer chunks j).length) ∧
        readHeaders (deliver chunks) ⟨0, []⟩ = .error .responseTooLarge := by
  have hgrow := @grow_headers chunks
  rw [h, Option.getD_some] at hgrow
  have hbody := httpBodyStart_le h
  change (∃ j ≤ _, _ ∧ _ ∧ (readWhile (deliver chunks) _ (readerAt chunks 0) >>= _) = _) ∨
    _ ∧ _ ∧ (readWhile (deliver chunks) _ (readerAt chunks 0) >>= _) = _
  rcases @readWhile_deliver chunks hne (fun l => (httpBodyStart l).isNone) 0 _ (Nat.zero_le _)
      hgrow (by simp [buffer_zero]) with
    ⟨j, -, hj, ht, hle, hread⟩ | ⟨-, ht, -⟩ | ⟨hlarge, hskip, hread⟩
  · refine .inl ⟨j, hj, ht, hle, ?_⟩
    have hsome : httpBodyStart (readerAt chunks j).response = some bodyStart :=
      httpBodyStart_buffer_iff.2 ⟨h, ht⟩
    rw [hread]
    simp only [bind, Except.bind, hsome]
    rfl
  · omega
  · refine .inr ⟨hlarge, hskip, ?_⟩
    rw [hread]
    rfl

include hne in
/-- A declared body that fits is read, unless a chunk skips from before its end beyond the limit. -/
theorem readDeclaredBody_fits {bodyStart n k : Nat} (hk : k ≤ chunks.length)
    (hle : (buffer chunks k).length ≤ MAX_HTTP_RESPONSE_BYTES)
    (hfits : bodyStart + n ≤ MAX_HTTP_RESPONSE_BYTES) :
    (chunks.flatten.length < bodyStart + n ∧ chunks.flatten.length ≤ MAX_HTTP_RESPONSE_BYTES ∧
        readDeclaredBody (deliver chunks) bodyStart n (readerAt chunks k) =
          .error .responseBodyIncomplete) ∨
      (∃ j ≤ chunks.length, bodyStart + n ≤ (buffer chunks j).length ∧
        (buffer chunks j).length ≤ MAX_HTTP_RESPONSE_BYTES ∧
        readDeclaredBody (deliver chunks) bodyStart n (readerAt chunks k) =
          .ok ⟨j, chunks.flatten.take (bodyStart + n)⟩) ∨
      MAX_HTTP_RESPONSE_BYTES < chunks.flatten.length ∧
        (∀ j ≤ chunks.length, bodyStart + n ≤ (buffer chunks j).length →
          MAX_HTTP_RESPONSE_BYTES < (buffer chunks j).length) ∧
        readDeclaredBody (deliver chunks) bodyStart n (readerAt chunks k) =
          .error .responseTooLarge := by
  unfold readDeclaredBody
  rw [if_neg (by omega)]
  rcases @readWhile_deliver chunks hne (fun l => l.length < bodyStart + n) k (bodyStart + n) hk
      (fun i => decide_eq_true_iff) hle with
    ⟨j, -, hj, ht, hle', hread⟩ | ⟨hle', ht, hread⟩ | ⟨hlarge, hskip, hread⟩
  · refine .inr (.inl ⟨j, hj, ht, hle', ?_⟩)
    have htake : (buffer chunks j).take (bodyStart + n) = chunks.flatten.take (bodyStart + n) := by
      rw [buffer_eq_take, List.take_take, min_eq_left ht]
    rw [hread]
    simp only [bind, Except.bind, readerAt, htake]
    rfl
  · refine .inl ⟨ht, hle', ?_⟩
    rw [hread]
    rfl
  · refine .inr (.inr ⟨hlarge, hskip, ?_⟩)
    rw [hread]
    rfl

include hne in
theorem readUndeclaredBody_deliver {k : Nat} (hk : k ≤ chunks.length)
    (hle : (buffer chunks k).length ≤ MAX_HTTP_RESPONSE_BYTES) :
    readUndeclaredBody (deliver chunks) (readerAt chunks k) =
      if MAX_HTTP_RESPONSE_BYTES < chunks.flatten.length then .error .responseTooLarge
      else .ok ⟨chunks.length + 1, chunks.flatten⟩ := by
  unfold readUndeclaredBody
  have hgrow : ∀ i, true = true ↔ (buffer chunks i).length < chunks.flatten.length + 1 :=
    fun i => iff_of_true rfl (Nat.lt_succ_of_le (length_buffer_le chunks i))
  rcases @readWhile_deliver chunks hne (fun _ => true) k _ hk hgrow hle with
    ⟨j, -, hj, ht, -, -⟩ | ⟨hle', -, hread⟩ | ⟨hlarge, -, hread⟩
  · have hlen := length_buffer_le chunks j
    omega
  · rw [hread, if_neg (by omega)]
    rfl
  · rw [hread, if_pos hlarge]
    rfl

/-- Nothing decides the response before the limit, or a chunk ends in time. -/
theorem isReadInTime_iff {t : Nat} (h : decidingLength chunks.flatten = some t)
    (hlarge : MAX_HTTP_RESPONSE_BYTES < chunks.flatten.length) :
    IsReadInTime chunks ↔ ∃ k ≤ chunks.length, t ≤ (buffer chunks k).length ∧
      (buffer chunks k).length ≤ MAX_HTTP_RESPONSE_BYTES := by
  unfold IsReadInTime
  rw [h]
  constructor
  · rintro (hle | hall)
    · omega
    · exact hall t rfl
  · intro hex
    refine .inr fun t' ht' => ?_
    obtain rfl := Option.some.inj ht'
    exact hex

theorem isReadInTime_of_none (h : decidingLength chunks.flatten = none) : IsReadInTime chunks := by
  refine .inr fun t ht => ?_
  rw [h] at ht
  cases ht

section
variable {bodyStart : Nat}
  (hstart : httpBodyStart (chunks.flatten.take MAX_HTTP_RESPONSE_BYTES) = some bodyStart)

include hne hstart in
/-- The response, once the headers are read. -/
theorem readResponse_of_headers {j : Nat} (hj : j ≤ chunks.length)
    (ht : bodyStart ≤ (buffer chunks j).length)
    (hle : (buffer chunks j).length ≤ MAX_HTTP_RESPONSE_BYTES)
    (hread : readHeaders (deliver chunks) ⟨0, []⟩ = .ok (bodyStart, readerAt chunks j)) :
    readResponse (deliver chunks) = responseOf chunks.flatten ↔ IsReadInTime chunks := by
  have htake : (readerAt chunks j).response.take bodyStart = chunks.flatten.take bodyStart := by
    rw [readerAt, buffer_eq_take, List.take_take, min_eq_left ht]
  unfold readResponse responseOf
  rw [hread, hstart]
  simp only [bind, Except.bind, htake]
  have hdeciding : decidingLength chunks.flatten =
      match parseHttpResponseHeaders (chunks.flatten.take bodyStart) with
      | .error _ => some bodyStart
      | .ok (_, some n) =>
        if MAX_HTTP_RESPONSE_BYTES < bodyStart + n then none else some (bodyStart + n)
      | .ok (_, none) => none := by
    rw [decidingLength, hstart]
  rcases hparse : parseHttpResponseHeaders (chunks.flatten.take bodyStart) with
    e | ⟨statusCode, _ | n⟩
  · rw [hparse] at hdeciding
    refine iff_of_true rfl (.inr fun t htime => ?_)
    rw [hdeciding] at htime
    obtain rfl := Option.some.inj htime
    exact ⟨j, hj, ht, hle⟩
  · rw [hparse] at hdeciding
    refine iff_of_true ?_ (isReadInTime_of_none hdeciding)
    simp only [readUndeclaredBody_deliver hne hj hle]
    split_ifs <;> rfl
  · rw [hparse] at hdeciding
    simp only at hdeciding ⊢
    by_cases hfits : bodyStart + n ≤ MAX_HTTP_RESPONSE_BYTES
    · rw [if_neg (by omega)] at hdeciding
      rw [if_neg (by omega : ¬ MAX_HTTP_RESPONSE_BYTES < bodyStart + n)]
      rcases readDeclaredBody_fits hne hj hle hfits with
        ⟨hshort, hle', hbody⟩ | ⟨k, hk, htk, hlek, hbody⟩ | ⟨hlarge, hskip, hbody⟩
      · rw [hbody, if_pos hshort]
        exact iff_of_true rfl (.inl hle')
      · have hlen := length_buffer_le chunks k
        rw [hbody, if_neg (by omega)]
        refine iff_of_true ?_ (.inr fun t htime => ?_)
        · simp only [pure, Except.pure, List.drop_take, Nat.add_sub_cancel_left]
        · rw [hdeciding] at htime
          obtain rfl := Option.some.inj htime
          exact ⟨k, hk, htk, hlek⟩
      · rw [hbody, if_neg (by omega), isReadInTime_iff hdeciding hlarge]
        refine iff_of_false (by simp) ?_
        rintro ⟨k, hk, htk, hlek⟩
        have hbeyond := hskip k hk htk
        omega
    · rw [if_pos (by omega)] at hdeciding
      refine iff_of_true ?_ (isReadInTime_of_none hdeciding)
      rw [readDeclaredBody, if_pos (by omega), if_pos (by omega)]
      rfl

include hstart in
/-- The response, where a chunk skips from within the headers beyond the limit. -/
theorem readResponse_of_skip (hlarge : MAX_HTTP_RESPONSE_BYTES < chunks.flatten.length)
    (hskip : ∀ j ≤ chunks.length, bodyStart ≤ (buffer chunks j).length →
      MAX_HTTP_RESPONSE_BYTES < (buffer chunks j).length)
    (hread : readHeaders (deliver chunks) ⟨0, []⟩ = .error .responseTooLarge) :
    readResponse (deliver chunks) = responseOf chunks.flatten ↔ IsReadInTime chunks := by
  have hnever : ∀ t, bodyStart ≤ t → decidingLength chunks.flatten = some t →
      ¬ IsReadInTime chunks := by
    intro t hle htime hin
    obtain ⟨k, hk, htk, hlek⟩ := (isReadInTime_iff htime hlarge).1 hin
    have hbeyond := hskip k hk (by omega)
    omega
  have hresponse : readResponse (deliver chunks) = .error .responseTooLarge := by
    rw [readResponse, hread]
    rfl
  have hdeciding : decidingLength chunks.flatten =
      match parseHttpResponseHeaders (chunks.flatten.take bodyStart) with
      | .error _ => some bodyStart
      | .ok (_, some n) =>
        if MAX_HTTP_RESPONSE_BYTES < bodyStart + n then none else some (bodyStart + n)
      | .ok (_, none) => none := by
    rw [decidingLength, hstart]
  rw [hresponse, responseOf, hstart]
  rcases hparse : parseHttpResponseHeaders (chunks.flatten.take bodyStart) with
    e | ⟨statusCode, _ | n⟩
  · obtain rfl := parseHttpResponseHeaders_error hparse
    rw [hparse] at hdeciding
    simp only [hparse]
    exact iff_of_false (by simp) (hnever _ le_rfl hdeciding)
  · rw [hparse] at hdeciding
    simp only [hparse, if_pos hlarge]
    exact iff_of_true trivial (isReadInTime_of_none hdeciding)
  · rw [hparse] at hdeciding
    simp only [hparse] at hdeciding ⊢
    by_cases hfits : bodyStart + n ≤ MAX_HTTP_RESPONSE_BYTES
    · rw [if_neg (by omega)] at hdeciding
      rw [if_neg (by omega), if_neg (by omega)]
      exact iff_of_false (by simp) (hnever _ (by omega) hdeciding)
    · rw [if_pos (by omega)] at hdeciding
      rw [if_pos (by omega)]
      exact iff_of_true rfl (isReadInTime_of_none hdeciding)

end

include hne in
/-- What is read of the chunks is the response of the whole sequence exactly when they are read in
time. -/
theorem readResponse_deliver_iff :
    readResponse (deliver chunks) = responseOf chunks.flatten ↔ IsReadInTime chunks := by
  rcases hstart : httpBodyStart (chunks.flatten.take MAX_HTTP_RESPONSE_BYTES) with _ | bodyStart
  · have hnone : decidingLength chunks.flatten = none := by rw [decidingLength, hstart]
    refine iff_of_true ?_ (isReadInTime_of_none hnone)
    rw [readResponse, readHeaders_none hne hstart, responseOf, hstart]
    rfl
  · rcases readHeaders_some hne (httpBodyStart_take_iff.1 hstart).1 with
      ⟨j, hj, ht, hle, hread⟩ | ⟨hlarge, hskip, hread⟩
    · exact readResponse_of_headers hne hstart hj ht hle hread
    · exact readResponse_of_skip hstart hlarge hskip hread

/-! ### Every delivery of a sequence -/

/-- What a stream with a buffer of 512 bytes answers before it ends. -/
def AreReads (chunks : List (List UInt8)) : Prop := ∀ c ∈ chunks, c ≠ [] ∧ c.length ≤ 512

theorem four_le_decidingLength {l : List UInt8} {t : Nat} (h : decidingLength l = some t) :
    4 ≤ t := by
  unfold decidingLength at h
  split at h
  · cases h
  · next bodyStart hstart =>
    have hfour := four_le_httpBodyStart hstart
    split at h
    · exact Option.some.inj h ▸ hfour
    · split_ifs at h
      have ht := Option.some.inj h
      omega
    · cases h

theorem decidingLength_le {l : List UInt8} {t : Nat} (h : decidingLength l = some t) :
    t ≤ MAX_HTTP_RESPONSE_BYTES := by
  unfold decidingLength at h
  split at h
  · cases h
  · next bodyStart hstart =>
    have hle := (httpBodyStart_take_iff.1 hstart).2
    split at h
    · exact Option.some.inj h ▸ hle
    · split_ifs at h
      have ht := Option.some.inj h
      omega
    · cases h

/-- No read of 512 bytes skips from before the deciding end beyond a limit far behind it. -/
theorem isReadInTime_of_far {t : Nat} (hchunks : AreReads chunks)
    (h : decidingLength chunks.flatten = some t) (hfar : t + 510 < MAX_HTTP_RESPONSE_BYTES)
    (hlarge : MAX_HTTP_RESPONSE_BYTES < chunks.flatten.length) : IsReadInTime chunks := by
  have hfour := four_le_decidingLength h
  obtain ⟨k, hk, ht, hbefore⟩ := @exists_first chunks t (by omega)
  refine (isReadInTime_iff h hlarge).2 ⟨k, hk, ht, ?_⟩
  obtain ⟨j, rfl⟩ : ∃ j, k = j + 1 := ⟨k - 1, by
    have hzero : k ≠ 0 := by
      rintro rfl
      rw [buffer_zero, List.length_nil] at ht
      omega
    omega⟩
  have hshort := hbefore j (by omega)
  have hchunk := (hchunks _ (List.getElem_mem (show j < chunks.length by omega))).2
  rw [buffer_succ (by omega), List.length_append]
  omega

/-- A delivery in single bytes, but for one read that skips from `m` bytes to `n`. -/
def skipping (l : List UInt8) (m n : Nat) : List (List UInt8) :=
  (l.take m).map (fun b => [b]) ++ (l.drop m).take (n - m) :: (l.drop n).map (fun b => [b])

theorem flatten_singletons (l : List UInt8) : (l.map fun b => [b]).flatten = l := by
  induction l with
  | nil => rfl
  | cons b l ih => rw [List.map_cons, List.flatten_cons, ih, List.singleton_append]

theorem flatten_skipping {l : List UInt8} {m n : Nat} (hmn : m ≤ n) :
    (skipping l m n).flatten = l := by
  have hdrop : l.drop n = (l.drop m).drop (n - m) := by rw [List.drop_drop, Nat.add_sub_cancel' hmn]
  rw [skipping, List.flatten_append, List.flatten_cons, flatten_singletons, flatten_singletons,
    hdrop, List.take_append_drop, List.take_append_drop]

theorem areReads_skipping {l : List UInt8} {m n : Nat} (hmn : m < n) (hn : n ≤ l.length)
    (hsize : n ≤ m + 512) : AreReads (skipping l m n) := by
  have hsingle : ∀ l : List UInt8, ∀ c ∈ l.map (fun b => [b]), c ≠ [] ∧ c.length ≤ 512 := by
    intro l c hc
    obtain ⟨b, -, rfl⟩ := List.mem_map.1 hc
    simp
  intro c hc
  rcases List.mem_append.1 hc with hc | hc
  · exact hsingle _ c hc
  · rcases List.mem_cons.1 hc with rfl | hc
    · have hlen : ((l.drop m).take (n - m)).length = n - m := by
        rw [List.length_take, List.length_drop]
        omega
      refine ⟨fun hnil => ?_, by omega⟩
      rw [hnil, List.length_nil] at hlen
      omega
    · exact hsingle _ c hc

theorem not_isReadInTime_skipping {l : List UInt8} {t : Nat} (h : decidingLength l = some t)
    (hlarge : MAX_HTTP_RESPONSE_BYTES < l.length) (ht : t ≤ MAX_HTTP_RESPONSE_BYTES) :
    ¬ IsReadInTime (skipping l (t - 1) (MAX_HTTP_RESPONSE_BYTES + 1)) := by
  have hfour := four_le_decidingLength h
  have hflat : (skipping l (t - 1) (MAX_HTTP_RESPONSE_BYTES + 1)).flatten = l :=
    flatten_skipping (by omega)
  have hsingles : ((l.take (t - 1)).map fun b => [b]).length = t - 1 := by
    rw [List.length_map, List.length_take]
    omega
  have hbefore : (buffer (skipping l (t - 1) (MAX_HTTP_RESPONSE_BYTES + 1)) (t - 1)).length =
      t - 1 := by
    rw [buffer, skipping, List.take_left' hsingles, flatten_singletons, List.length_take]
    omega
  have hafter : (buffer (skipping l (t - 1) (MAX_HTTP_RESPONSE_BYTES + 1)) (t - 1 + 1)).length =
      MAX_HTTP_RESPONSE_BYTES + 1 := by
    have hk : t - 1 < (skipping l (t - 1) (MAX_HTTP_RESPONSE_BYTES + 1)).length := by
      rw [skipping, List.length_append, hsingles, List.length_cons]
      omega
    have hget : (skipping l (t - 1) (MAX_HTTP_RESPONSE_BYTES + 1))[t - 1] =
        (l.drop (t - 1)).take (MAX_HTTP_RESPONSE_BYTES + 1 - (t - 1)) := by
      simp only [skipping]
      rw [List.getElem_append_right (by omega)]
      simp only [hsingles, Nat.sub_self, List.getElem_cons_zero]
    rw [buffer_succ hk, List.length_append, hbefore, hget, List.length_take, List.length_drop]
    omega
  rw [isReadInTime_iff (by rwa [hflat]) (by rwa [hflat])]
  rintro ⟨k, -, htk, hle⟩
  by_cases hk : k ≤ t - 1
  · have hmono := length_buffer_mono
      (skipping l (t - 1) (MAX_HTTP_RESPONSE_BYTES + 1)) hk
    omega
  · have hmono := length_buffer_mono
      (skipping l (t - 1) (MAX_HTTP_RESPONSE_BYTES + 1)) (show t - 1 + 1 ≤ k by omega)
    omega

/-- Every delivery of a sequence gives its response exactly when the sequence does not go beyond the
limit, or nothing decides it before, or what does is far from the limit. -/
theorem readResponse_all_iff (l : List UInt8) :
    (∀ chunks, AreReads chunks → chunks.flatten = l →
        readResponse (deliver chunks) = responseOf l) ↔
      l.length ≤ MAX_HTTP_RESPONSE_BYTES ∨
        ∀ t, decidingLength l = some t → t + 510 < MAX_HTTP_RESPONSE_BYTES := by
  constructor
  · intro h
    by_contra hcase
    simp only [not_or, not_forall] at hcase
    obtain ⟨hlarge, t, ht, hclose⟩ := hcase
    have hlimit : t ≤ MAX_HTTP_RESPONSE_BYTES := decidingLength_le ht
    have hfour := four_le_decidingLength ht
    have hreads : AreReads (skipping l (t - 1) (MAX_HTTP_RESPONSE_BYTES + 1)) :=
      areReads_skipping (by omega) (by omega) (by omega)
    have hflat : (skipping l (t - 1) (MAX_HTTP_RESPONSE_BYTES + 1)).flatten = l :=
      flatten_skipping (by omega)
    have hread := h _ hreads hflat
    refine not_isReadInTime_skipping ht (by omega) hlimit
      ((readResponse_deliver_iff fun c hc => (hreads c hc).1).1 ?_)
    rw [hflat]
    exact hread
  · rintro h chunks hchunks rfl
    refine (readResponse_deliver_iff fun c hc => (hchunks c hc).1).2 ?_
    by_cases hlarge : chunks.flatten.length ≤ MAX_HTTP_RESPONSE_BYTES
    · exact .inl hlarge
    · rcases h with hle | hfar
      · exact .inl hle
      · rcases htime : decidingLength chunks.flatten with _ | t
        · exact isReadInTime_of_none htime
        · exact isReadInTime_of_far hchunks htime (hfar t htime) (by omega)

/-- When the result of a delivery, and of all deliveries of a sequence, is the response of the whole
sequence; and what every stream does to the buffer. -/
theorem readResponse_chunks_iff (l : List UInt8) :
    (∀ chunks, AreReads chunks → chunks.flatten = l →
      (readResponse (deliver chunks) = responseOf l ↔ IsReadInTime chunks)) ∧
    ((∀ chunks, AreReads chunks → chunks.flatten = l →
        readResponse (deliver chunks) = responseOf l) ↔
      l.length ≤ MAX_HTTP_RESPONSE_BYTES ∨
        ∀ t, decidingLength l = some t → t + 510 < MAX_HTTP_RESPONSE_BYTES) ∧
    ∀ stream r, IsReached stream r →
      (r.position ≤ r.response.length ∧ r.response.length ≤ MAX_HTTP_RESPONSE_BYTES) ∧
      ∀ grow enough r', readWhile stream grow r = .ok (enough, r') →
        r'.position ≤ r'.response.length + 1 ∧
          r'.response.length ≤ MAX_HTTP_RESPONSE_BYTES := by
  refine ⟨fun chunks hchunks hflat => ?_, readResponse_all_iff l, fun stream r hr => ?_⟩
  · subst hflat
    exact readResponse_deliver_iff fun c hc => (hchunks c hc).1
  · refine ⟨isReached_bounds hr, fun grow enough r' hread => ?_⟩
    obtain ⟨s, hs, hresponse, hposition⟩ := readWhile_isReached hr hread
    obtain ⟨hle, hlimit⟩ := isReached_bounds hs
    rw [hresponse]
    exact ⟨by omega, hlimit⟩

/-- The headers of a response that takes up the whole limit. -/
def fullHeaders : List UInt8 :=
  "HTTP/1.1 200 OK\r\nContent-Length: 65494\r\n\r\n".toList.map fun c => UInt8.ofNat c.toNat

/-- A response of 64 KiB, and one byte after it. -/
def fullResponse : List UInt8 := fullHeaders ++ List.replicate 65495 0x61

theorem take_fullResponse : fullResponse.take 42 = fullHeaders :=
  List.take_left' (by decide +kernel)

theorem length_fullResponse : fullResponse.length = MAX_HTTP_RESPONSE_BYTES + 1 := by
  have hlen : fullHeaders.length = 42 := by decide +kernel
  rw [fullResponse, List.length_append, List.length_replicate, hlen]
  rfl

theorem decidingLength_fullResponse :
    decidingLength fullResponse = some MAX_HTTP_RESPONSE_BYTES := by
  have hheaders : httpBodyStart fullHeaders = some 42 := by decide +kernel
  have hparse : parseHttpResponseHeaders fullHeaders = .ok (200, some 65494) := by decide +kernel
  rw [← take_fullResponse] at hheaders
  have hstart := httpBodyStart_take_iff.2
    ⟨(httpBodyStart_take_iff.1 hheaders).1, show 42 ≤ MAX_HTTP_RESPONSE_BYTES by decide⟩
  rw [decidingLength, hstart]
  simp only [take_fullResponse, hparse]
  decide

/-- The response is read byte by byte, but not where one read takes its last byte and the next. -/
theorem not_readResponse_chunks :
    ¬ ∀ chunks chunks', AreReads chunks → AreReads chunks' → chunks.flatten = chunks'.flatten →
      readResponse (deliver chunks) = readResponse (deliver chunks') := by
  intro h
  have hlarge : MAX_HTTP_RESPONSE_BYTES < fullResponse.length := by
    rw [length_fullResponse]
    exact Nat.lt_succ_self _
  have hskip : AreReads (skipping fullResponse (MAX_HTTP_RESPONSE_BYTES - 1)
      (MAX_HTTP_RESPONSE_BYTES + 1)) := areReads_skipping (by decide) hlarge (by decide)
  have hflat : (skipping fullResponse (MAX_HTTP_RESPONSE_BYTES - 1)
      (MAX_HTTP_RESPONSE_BYTES + 1)).flatten = fullResponse := flatten_skipping (by decide)
  have hsingle : AreReads (fullResponse.map fun b => [b]) := by
    intro c hc
    obtain ⟨b, -, rfl⟩ := List.mem_map.1 hc
    simp
  have htime : IsReadInTime (fullResponse.map fun b => [b]) := by
    have hdeciding := decidingLength_fullResponse
    rw [← flatten_singletons fullResponse] at hdeciding hlarge
    refine (isReadInTime_iff hdeciding hlarge).2 ⟨MAX_HTTP_RESPONSE_BYTES, ?_, ?_⟩
    · rw [List.length_map, length_fullResponse]
      exact Nat.le_succ _
    · rw [buffer, ← List.map_take, flatten_singletons, List.length_take, length_fullResponse]
      decide
  have hread := (readResponse_deliver_iff fun c hc => (hsingle c hc).1).2 htime
  rw [flatten_singletons, ← h _ _ hskip hsingle (by rw [hflat, flatten_singletons])] at hread
  refine not_isReadInTime_skipping decidingLength_fullResponse hlarge le_rfl
    ((readResponse_deliver_iff fun c hc => (hskip c hc).1).1 ?_)
  rw [hflat]
  exact hread

end Agentbox.Runtime.HttpChunks
