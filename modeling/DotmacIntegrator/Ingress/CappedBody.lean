import DotmacIntegrator.Foundation.StreamLoop
import Mathlib.Order.Bounds.Basic

/-!
# Reading a request body under a cap

The body of a request arrives in chunks, any number of them and of any length. It is returned whole
if it has at most as many bytes as the cap, and refused on the first chunk that exceeds it. A body
that never ends and never exceeds the cap, because its chunks are empty from some point on, is
waited for.

## Main definitions

* `readCappedBody`: the reading of a body, moment by moment
* `outcome`, `Ends`: what it returns or raises, and what it pulled until then

## Main results

* `readCappedBody_exact`: what is returned, when it is refused, and how much is retained
* `ends_ok_iff`: a body that is returned is complete
-/

namespace DotmacIntegrator.Ingress

open Stream' (Seq)

/-- A `bytes` object. -/
abbrev Bytes := List UInt8

/-- The stream exceeded the cap. It carries nothing. -/
structure BodyTooLarge
  deriving DecidableEq, Repr

/-- The chunks that are kept, and the number of bytes seen. -/
structure Reading where
  chunks : List Bytes
  seen : ℕ
  deriving DecidableEq, Repr

/-- The bytes of the chunks together. -/
def totalBytes (chunks : List Bytes) : ℕ := chunks.flatten.length

/-- One round of the loop: a chunk that exceeds the cap is not kept. The cap is a number of bytes,
and the settings require one at least. -/
def readChunk (limit : ℕ) (r : Reading) (chunk : Bytes) : Reading × Option BodyTooLarge :=
  let seen := r.seen + chunk.length
  if limit < seen then ({ r with seen }, some ⟨⟩) else (⟨r.chunks ++ [chunk], seen⟩, none)

/-- `read_capped_body`, after `n` attempts to pull a chunk. -/
def readCappedBody (limit : ℕ) (stream : Seq Bytes) (n : ℕ) :
    StreamLoop.Moment Bytes Reading BodyTooLarge :=
  StreamLoop.after (readChunk limit) ⟨[], 0⟩ stream n

/-- What was returned or raised; none while the body is being read. -/
def outcome (m : StreamLoop.Moment Bytes Reading BodyTooLarge) :
    Option (Except BodyTooLarge Bytes) :=
  match m.status with
  | .running => none
  | .exhausted => some (.ok m.state.chunks.flatten)
  | .raised e => some (.error e)

/-- From some moment on, these chunks are pulled and this is the result. -/
def Ends (limit : ℕ) (stream : Seq Bytes) (pulled : List Bytes)
    (result : Except BodyTooLarge Bytes) : Prop :=
  ∃ n, ∀ k ≥ n, (readCappedBody limit stream k).pulled = pulled ∧
    outcome (readCappedBody limit stream k) = some result

variable {limit : ℕ} {stream : Seq Bytes}

theorem totalBytes_concat (chunks : List Bytes) (chunk : Bytes) :
    totalBytes (chunks ++ [chunk]) = totalBytes chunks + chunk.length := by
  rw [totalBytes, List.flatten_append, List.length_append, List.flatten_singleton, totalBytes]

/-! ### Rounds of the loop -/

theorem readChunk_of_le {r : Reading} {chunk : Bytes} (h : r.seen + chunk.length ≤ limit) :
    readChunk limit r chunk = (⟨r.chunks ++ [chunk], r.seen + chunk.length⟩, none) :=
  if_neg (Nat.not_lt.mpr h)

theorem readChunk_of_lt {r : Reading} {chunk : Bytes} (h : limit < r.seen + chunk.length) :
    readChunk limit r chunk = (⟨r.chunks, r.seen + chunk.length⟩, some ⟨⟩) :=
  if_pos h

/-- Chunks that do not exceed the cap are all kept. -/
theorem run_readChunk {chunks : List Bytes} (h : totalBytes chunks ≤ limit) :
    RaisingLoop.run (readChunk limit) ⟨[], 0⟩ chunks = (⟨chunks, totalBytes chunks⟩, none) := by
  -- Induction on the last chunk.
  induction chunks using List.reverseRecOn with
  | nil => rfl
  | append_singleton chunks chunk ih =>
    rw [totalBytes_concat] at h
    have hprior := ih (by omega)
    rw [RaisingLoop.run_append_of_none _ _ (by rw [hprior]), hprior, RaisingLoop.run_singleton,
      readChunk_of_le h, totalBytes_concat]

/-- What is kept never exceeds the cap. -/
theorem totalBytes_chunks_le (n : ℕ) :
    totalBytes (readCappedBody limit stream n).state.chunks ≤ limit := by
  -- While the loop runs, as many bytes are kept as were seen.
  refine @StreamLoop.state_invariant Bytes Reading BodyTooLarge (readChunk limit) ⟨[], 0⟩ stream
    (fun r => r.seen = totalBytes r.chunks ∧ r.seen ≤ limit) (fun r => totalBytes r.chunks ≤ limit)
    ⟨rfl, Nat.zero_le limit⟩ ?_ ?_ ?_ n
  · rintro r ⟨hseen, hle⟩
    exact hseen ▸ hle
  · rintro r chunk ⟨hseen, -⟩ hgoes
    by_cases h : limit < r.seen + chunk.length
    · rw [readChunk_of_lt h] at hgoes
      cases hgoes
    · have hle := Nat.not_lt.mp h
      rw [readChunk_of_le hle]
      refine ⟨?_, hle⟩
      show r.seen + chunk.length = totalBytes (r.chunks ++ [chunk])
      rw [totalBytes_concat, hseen]
  · rintro r chunk e ⟨hseen, hle⟩ hraises
    by_cases h : limit < r.seen + chunk.length
    · rw [readChunk_of_lt h]
      exact hseen ▸ hle
    · rw [readChunk_of_le (Nat.not_lt.mp h)] at hraises
      cases hraises

/-! ### Ends -/

/-- A moment at which the loop has come to an end says how it ended. -/
theorem ends_of_moment {n : ℕ} {result : Except BodyTooLarge Bytes}
    (h : outcome (readCappedBody limit stream n) = some result) :
    Ends limit stream (readCappedBody limit stream n).pulled result := by
  refine ⟨n, fun k hk => ?_⟩
  have hended : (readCappedBody limit stream n).status ≠ .running := by
    intro hrunning
    rw [outcome, hrunning] at h
    cases h
  have hstable : readCappedBody limit stream k = readCappedBody limit stream n :=
    StreamLoop.after_stable hended hk
  rw [hstable]
  exact ⟨rfl, h⟩

/-- Reading ends in one way. -/
theorem Ends.unique {pulled pulled' : List Bytes} {result result' : Except BodyTooLarge Bytes}
    (h : Ends limit stream pulled result) (h' : Ends limit stream pulled' result') :
    pulled = pulled' ∧ result = result' := by
  obtain ⟨n, hn⟩ := h
  obtain ⟨n', hn'⟩ := h'
  obtain ⟨hpulled, hresult⟩ := hn (max n n') (le_max_left n n')
  obtain ⟨hpulled', hresult'⟩ := hn' (max n n') (le_max_right n n')
  exact ⟨hpulled.symm.trans hpulled', Option.some.inj (hresult.symm.trans hresult')⟩

/-- A stream within the cap is read to its end. -/
theorem ends_of_le {chunks : List Bytes} (h : totalBytes chunks ≤ limit) :
    Ends limit (.ofList chunks) chunks (.ok chunks.flatten) := by
  have hrun := run_readChunk h
  have hend := @StreamLoop.after_exhausted Bytes Reading BodyTooLarge (readChunk limit) ⟨[], 0⟩
    chunks (by rw [hrun])
  rw [hrun] at hend
  have hmoment : outcome (readCappedBody limit (.ofList chunks) (chunks.length + 1)) =
      some (.ok chunks.flatten) := by
    rw [readCappedBody, hend]
    rfl
  have hends := ends_of_moment hmoment
  rwa [readCappedBody, hend] at hends

/-- The shortest prefix that exceeds the cap ends in a chunk, and is within the cap without it. -/
theorem exists_chunk_of_isLeast {n : ℕ} (h : IsLeast {n | limit < totalBytes (stream.take n)} n) :
    ∃ k chunk, n = k + 1 ∧ stream.get? k = some chunk ∧ totalBytes (stream.take k) ≤ limit := by
  obtain ⟨hexceeds, hleast⟩ := h
  cases n with
  | zero => exact absurd hexceeds (Nat.not_lt_zero limit)
  | succ k =>
    have hwithin : ¬ limit < totalBytes (stream.take k) := fun hk =>
      Nat.not_succ_le_self k (hleast hk)
    cases hget : stream.get? k with
    | none =>
      -- Nothing is pulled that was not pulled before.
      have hsame : stream.take (k + 1) = stream.take k := by
        rw [StreamLoop.take_succ, hget, Option.toList_none, List.append_nil]
      exact absurd (hsame ▸ hexceeds) hwithin
    | some chunk => exact ⟨k, chunk, rfl, hget, Nat.not_lt.mp hwithin⟩

/-- A stream is refused on the shortest prefix that exceeds the cap. -/
theorem ends_of_isLeast {n : ℕ} (h : IsLeast {n | limit < totalBytes (stream.take n)} n) :
    (stream.take n).length = n ∧ Ends limit stream (stream.take n) (.error ⟨⟩) := by
  obtain ⟨k, chunk, rfl, hget, hwithin⟩ := exists_chunk_of_isLeast h
  have hlength := StreamLoop.length_take_of_get? hget
  have htake : stream.take (k + 1) = stream.take k ++ [chunk] := by
    rw [StreamLoop.take_succ, hget]
    rfl
  have hexceeds : limit < totalBytes (stream.take k) + chunk.length := by
    rw [← totalBytes_concat, ← htake]
    exact h.1
  have hlast : (stream.take k ++ [chunk]).length = k + 1 := by
    rw [List.length_append, hlength, List.length_singleton]
  have hrun := run_readChunk hwithin
  have hend := @StreamLoop.after_raised Bytes Reading BodyTooLarge (readChunk limit) ⟨[], 0⟩ stream
    (stream.take k) chunk ⟨⟩ (by rw [hlast, htake]) (by rw [hrun])
    (by rw [hrun, readChunk_of_lt hexceeds])
  rw [hlength, ← htake] at hend
  have hmoment : outcome (readCappedBody limit stream (k + 1)) = some (.error ⟨⟩) := by
    rw [readCappedBody, hend]
    rfl
  have hends := ends_of_moment hmoment
  rw [readCappedBody, hend] at hends
  exact ⟨by rw [htake, hlast], hends⟩

/-- Where a prefix exceeds the cap, one is the shortest. -/
theorem exists_isLeast (h : ∃ n, limit < totalBytes (stream.take n)) :
    ∃ n, IsLeast {n | limit < totalBytes (stream.take n)} n :=
  ⟨Nat.find h, Nat.find_spec h, fun _ hn => Nat.find_min' h hn⟩

/-- A stream that goes on within the cap is waited for. -/
theorem outcome_eq_none (hgoes : ∀ n, (stream.get? n).isSome)
    (hwithin : ∀ n, totalBytes (stream.take n) ≤ limit) (n : ℕ) :
    outcome (readCappedBody limit stream n) = none := by
  obtain ⟨chunk, hget⟩ := Option.isSome_iff_exists.mp (hgoes n)
  have hlength := StreamLoop.length_take_of_get? hget
  have hrun := @StreamLoop.after_running Bytes Reading BodyTooLarge (readChunk limit) ⟨[], 0⟩ stream
    (stream.take n) (by rw [hlength]) (by rw [run_readChunk (hwithin n)])
  rw [hlength] at hrun
  rw [readCappedBody, hrun]
  rfl

/-- **A body that is returned is complete**: it is what the whole stream carried. -/
theorem ends_ok_iff {pulled : List Bytes} {body : Bytes} :
    Ends limit stream pulled (.ok body) ↔
      stream = .ofList pulled ∧ totalBytes pulled ≤ limit ∧ body = pulled.flatten := by
  constructor
  · intro hends
    have hwithin : ∀ n, totalBytes (stream.take n) ≤ limit := by
      intro n
      by_contra hexceeds
      obtain ⟨k, hleast⟩ := exists_isLeast ⟨n, Nat.not_le.mp hexceeds⟩
      cases (hends.unique (ends_of_isLeast hleast).2).2
    by_cases hterm : stream.Terminates
    · -- A stream that ends is within the cap as a whole.
      obtain ⟨chunks, rfl⟩ : ∃ chunks, stream = .ofList chunks :=
        ⟨stream.toList hterm, (stream.ofList_toList hterm).symm⟩
      have hle : totalBytes chunks ≤ limit := by
        rw [← StreamLoop.take_ofList chunks]
        exact hwithin chunks.length
      obtain ⟨rfl, hbody⟩ := hends.unique (ends_of_le hle)
      exact ⟨rfl, hle, Except.ok.inj hbody⟩
    · obtain ⟨n, hn⟩ := hends
      have hnone := outcome_eq_none (Seq.not_terminates_iff.mp hterm) hwithin n
      rw [(hn n le_rfl).2] at hnone
      cases hnone
  · rintro ⟨rfl, hle, rfl⟩
    exact ends_of_le hle

/-- **The cap is exact.** A stream that ends within the cap is returned whole; one of which a prefix
exceeds the cap is refused once the shortest such prefix is pulled, and nothing more is pulled. What
is kept is within the cap at every moment. -/
theorem readCappedBody_exact (limit : ℕ) (stream : Seq Bytes) :
    (∀ chunks, stream = .ofList chunks → totalBytes chunks ≤ limit →
      Ends limit stream chunks (.ok chunks.flatten)) ∧
    ((∃ n, limit < totalBytes (stream.take n)) →
      ∃ n, IsLeast {n | limit < totalBytes (stream.take n)} n ∧ (stream.take n).length = n ∧
        Ends limit stream (stream.take n) (.error ⟨⟩)) ∧
    ∀ n, totalBytes (readCappedBody limit stream n).state.chunks ≤ limit := by
  refine ⟨?_, ?_, totalBytes_chunks_le⟩
  · rintro chunks rfl h
    exact ends_of_le h
  · intro h
    obtain ⟨n, hleast⟩ := exists_isLeast h
    exact ⟨n, hleast, ends_of_isLeast hleast⟩

/-- A third chunk of ten bytes exceeds a cap of twenty-five, and no fourth is pulled. -/
example : (readCappedBody 25 (.ofList (List.replicate 100 (List.replicate 10 120))) 50).pulled =
    List.replicate 3 (List.replicate 10 120) := by decide

end DotmacIntegrator.Ingress
