import Rperf3.Library.Guarded
import Rperf3.Primitive

/-!
# The buffer pool (`buffer_pool.rs`)

Threads share a pool of buffers behind a mutex. Each method is split into what it
does before it locks the mutex and its accesses to the vector while it holds the
guard, so that the vector can be looked at between any two of them.
-/

namespace Rperf3

/-- The fields beside the locked vector. -/
structure BufferPool where
  bufferSize : ℕ
  maxPoolSize : ℕ

inductive PoolCall where
  | get
  | put (buffer : Bytes)
  | preallocate
  | size
  | clear

/-- Where a method is while it holds the guard. -/
inductive PoolBody where
  | get
  | put (buffer : Bytes)
  | push (buffer : Bytes)
  | preallocate
  | fill (count : ℕ)
  | size
  | clear

inductive PoolResult where
  | buffer (b : Bytes)
  | len (n : ℕ)
  | unit

namespace BufferPool

/-- `vec![0u8; self.buffer_size]`. -/
def zeroed (p : BufferPool) : Bytes := List.replicate p.bufferSize 0

/-- Only `put` looks at its argument before it locks. -/
def enter (p : BufferPool) : PoolCall → PoolBody ⊕ PoolResult
  | .get => .inl .get
  | .put buffer => if buffer.length ≠ p.bufferSize then .inr .unit else .inl (.put buffer)
  | .preallocate => .inl .preallocate
  | .size => .inl .size
  | .clear => .inl .clear

def access (p : BufferPool) : PoolBody → List Bytes → List Bytes × (PoolBody ⊕ PoolResult)
  | .get, pool =>
    match pool.getLast? with
    | some buffer => (pool.dropLast, .inr (.buffer buffer))
    | none => (pool, .inr (.buffer p.zeroed))
  | .put buffer, pool =>
    if pool.length < p.maxPoolSize then (pool, .inl (.push (buffer.map (fun _ => 0))))
    else (pool, .inr .unit)
  | .push buffer, pool => (pool ++ [buffer], .inr .unit)
  | .preallocate, pool => (pool, .inl (.fill (p.maxPoolSize - pool.length)))
  | .fill 0, pool => (pool, .inr .unit)
  | .fill (count + 1), pool => (pool ++ [p.zeroed], .inl (.fill count))
  | .size, pool => (pool, .inr (.len pool.length))
  | .clear, _ => ([], .inr .unit)

def ops (p : BufferPool) : Guarded.Ops (List Bytes) PoolBody PoolCall PoolResult :=
  ⟨p.enter, p.access⟩

/-- Every pooled buffer has the configured size and is zero, and there are not too many. -/
structure Clean (p : BufferPool) (pool : List Bytes) : Prop where
  zeroed : ∀ buffer ∈ pool, buffer = p.zeroed
  bounded : pool.length ≤ p.maxPoolSize

/-- The pool at each point of a method; the points of other methods are never reached. -/
def At (p : BufferPool) : PoolCall → PoolBody → List Bytes → Prop
  | .put _, .put buffer, pool => p.Clean pool ∧ buffer.length = p.bufferSize
  | .put _, .push buffer, pool =>
    p.Clean pool ∧ buffer = p.zeroed ∧ pool.length < p.maxPoolSize
  | .preallocate, .fill count, pool => p.Clean pool ∧ pool.length + count ≤ p.maxPoolSize
  | .get, .get, pool | .preallocate, .preallocate, pool | .size, .size, pool
  | .clear, .clear, pool => p.Clean pool
  | _, _, _ => False

def Promised (p : BufferPool) : PoolCall → PoolResult → Prop
  | .get, r => r = .buffer p.zeroed
  | .size, r => ∃ n ≤ p.maxPoolSize, r = .len n
  | _, _ => True

variable {p : BufferPool} {pool : List Bytes} {m : PoolCall} {k : PoolBody} {r : PoolResult}

theorem clean_nil : p.Clean [] := ⟨fun _ h => absurd h List.not_mem_nil, Nat.zero_le _⟩

theorem Clean.push (h : p.Clean pool) (hroom : pool.length < p.maxPoolSize) :
    p.Clean (pool ++ [p.zeroed]) := by
  constructor
  · intro buffer hbuffer
    rcases List.mem_append.mp hbuffer with hold | hnew
    · exact h.zeroed buffer hold
    · exact List.mem_singleton.mp hnew
  · rw [List.length_append, List.length_singleton]
    omega

theorem Clean.pop (h : p.Clean pool) : p.Clean pool.dropLast := by
  constructor
  · exact fun buffer hbuffer => h.zeroed buffer (List.dropLast_subset pool hbuffer)
  · rw [List.length_dropLast]
    exact Nat.le_trans (Nat.sub_le _ _) h.bounded

/-- The points of a method, with what holds there. -/
theorem At.cases (h : p.At m k pool) :
    (m = .get ∧ k = .get ∧ p.Clean pool) ∨
    (∃ arg buffer, m = .put arg ∧ k = .put buffer ∧ p.Clean pool ∧
      buffer.length = p.bufferSize) ∨
    (∃ arg buffer, m = .put arg ∧ k = .push buffer ∧ p.Clean pool ∧ buffer = p.zeroed ∧
      pool.length < p.maxPoolSize) ∨
    (m = .preallocate ∧ k = .preallocate ∧ p.Clean pool) ∨
    (∃ count, m = .preallocate ∧ k = .fill count ∧ p.Clean pool ∧
      pool.length + count ≤ p.maxPoolSize) ∨
    (m = .size ∧ k = .size ∧ p.Clean pool) ∨
    (m = .clear ∧ k = .clear ∧ p.Clean pool) := by
  unfold At at h
  split at h
  · exact .inr (.inl ⟨_, _, rfl, rfl, h⟩)
  · exact .inr (.inr (.inl ⟨_, _, rfl, rfl, h⟩))
  · exact .inr (.inr (.inr (.inr (.inl ⟨_, rfl, rfl, h⟩))))
  · exact .inl ⟨rfl, rfl, h⟩
  · exact .inr (.inr (.inr (.inl ⟨rfl, rfl, h⟩)))
  · exact .inr (.inr (.inr (.inr (.inr (.inl ⟨rfl, rfl, h⟩)))))
  · exact .inr (.inr (.inr (.inr (.inr (.inr ⟨rfl, rfl, h⟩)))))
  · exact h.elim

theorem At.clean (h : p.At m k pool) : p.Clean pool := by
  obtain ⟨-, -, h⟩ | ⟨-, -, -, -, h, -⟩ | ⟨-, -, -, -, h, -⟩ | ⟨-, -, h⟩ | ⟨-, -, -, h, -⟩ |
    ⟨-, -, h⟩ | ⟨-, -, h⟩ := h.cases <;> exact h

theorem enter_at (h : p.enter m = .inl k) (hclean : p.Clean pool) : p.At m k pool := by
  cases m with
  | put buffer =>
    simp only [enter] at h
    split at h
    · exact nomatch h
    · next hlen =>
      cases h
      exact ⟨hclean, not_not.mp hlen⟩
  | _ =>
    cases h
    exact hclean

theorem enter_promised (h : p.enter m = .inr r) : p.Promised m r := by
  cases m with
  | put buffer => trivial
  | _ => exact nomatch h

/-- The buffer is overwritten before it is pushed, whatever it held. -/
theorem fill_zeroed {buffer : Bytes} (h : buffer.length = p.bufferSize) :
    buffer.map (fun _ => 0) = p.zeroed := by
  rw [List.map_const', h, zeroed]

/-- An access goes on at a point of the same method, or returns what was promised. -/
theorem access_spec (h : p.At m k pool) :
    match p.access k pool with
    | (pool', .inl k') => p.At m k' pool'
    | (pool', .inr r) => p.Clean pool' ∧ p.Promised m r := by
  obtain ⟨rfl, rfl, hclean⟩ | ⟨arg, buffer, rfl, rfl, hclean, hlen⟩ |
    ⟨arg, buffer, rfl, rfl, hclean, hzero, hroom⟩ | ⟨rfl, rfl, hclean⟩ |
    ⟨count, rfl, rfl, hclean, hcount⟩ | ⟨rfl, rfl, hclean⟩ | ⟨rfl, rfl, hclean⟩ := h.cases
  · cases hlast : pool.getLast? with
    | none =>
      simp only [access, hlast]
      exact ⟨hclean, rfl⟩
    | some buffer =>
      have hzero := hclean.zeroed buffer (List.mem_of_getLast? hlast)
      simp only [access, hlast]
      exact ⟨hclean.pop, congrArg PoolResult.buffer hzero⟩
  · by_cases hroom : pool.length < p.maxPoolSize
    · simp only [access, if_pos hroom]
      exact ⟨hclean, fill_zeroed hlen, hroom⟩
    · simp only [access, if_neg hroom]
      exact ⟨hclean, trivial⟩
  · rw [hzero]
    exact ⟨hclean.push hroom, trivial⟩
  · have hbounded := hclean.bounded
    exact ⟨hclean, by omega⟩
  · cases count with
    | zero => exact ⟨hclean, trivial⟩
    | succ count =>
      refine ⟨hclean.push (by omega), ?_⟩
      rw [List.length_append, List.length_singleton]
      omega
  · exact ⟨hclean, pool.length, hclean.bounded, rfl⟩
  · exact ⟨clean_nil, trivial⟩

theorem sound (p : BufferPool) : Guarded.Sound p.ops p.Clean p.At p.Promised where
  entered _ _ h _ hclean := enter_at h hclean
  refused _ _ h := enter_promised h
  holds _ _ _ h := h.clean
  continues _ _ _ _ _ h hacc := by
    have hspec := access_spec h
    rwa [show p.access _ _ = _ from hacc] at hspec
  returns _ _ _ _ _ h hacc := by
    have hspec := access_spec h
    rwa [show p.access _ _ = _ from hacc] at hspec

/-- The accesses a method still makes, besides the one at which it returns. -/
def accessesLeft (p : BufferPool) : PoolBody → ℕ
  | .put _ => 1
  | .preallocate => p.maxPoolSize + 1
  | .fill count => count
  | _ => 0

theorem access_ends (p : BufferPool) : Guarded.Ends p.ops p.accessesLeft := by
  intro k pool pool' k' hacc
  have hacc' : p.access k pool = (pool', .inl k') := hacc
  cases k with
  | get =>
    simp only [access] at hacc'
    split at hacc'
    · exact nomatch (Prod.mk.inj hacc').2
    · exact nomatch (Prod.mk.inj hacc').2
  | put buffer =>
    simp only [access] at hacc'
    split at hacc'
    · cases hacc'
      exact Nat.zero_lt_one
    · exact nomatch (Prod.mk.inj hacc').2
  | preallocate =>
    cases hacc'
    exact Nat.lt_succ_of_le (Nat.sub_le _ _)
  | fill count =>
    cases count with
    | zero => exact nomatch (Prod.mk.inj hacc').2
    | succ count =>
      cases hacc'
      exact Nat.lt_succ_self count
  | _ => exact nomatch (Prod.mk.inj hacc').2

end BufferPool

/-- Whatever the threads put, `get` returns zeroed buffers of the configured size, and the pool
never holds more than `max_pool_size` of them; a `get` under way can always return. -/
theorem bufferPool_clean {ι : Type*} [DecidableEq ι] {p : BufferPool}
    {s : Guarded.State ι (List Bytes) PoolBody PoolCall PoolResult}
    (h : Lts.Reachable (Guarded.step p.ops) (Guarded.State.start []) s) :
    (∀ r, (.get, r) ∈ s.returned → r = .buffer (List.replicate p.bufferSize 0)) ∧
      (∀ r, (.size, r) ∈ s.returned → ∃ n ≤ p.maxPoolSize, r = .len n) ∧
      s.value.length ≤ p.maxPoolSize ∧
      ∀ i k, s.threads i = .waiting .get k ∨ s.threads i = .inside .get k →
        ∃ s', Lts.Reachable (Guarded.step p.ops) s s' ∧ s'.threads i = .idle ∧
          s'.returned.head? = some (.get, .buffer (List.replicate p.bufferSize 0)) := by
  have hinv := p.sound.reachable BufferPool.clean_nil h
  refine ⟨fun r hr => hinv.returned _ hr, fun r hr => hinv.returned _ hr, hinv.value.bounded, ?_⟩
  intro i k hi
  obtain ⟨s', r, hreach, hreturned, hidle⟩ := hinv.returns p.access_ends hi
  have hinv' := p.sound.reachable BufferPool.clean_nil (h.trans hreach)
  obtain rfl : r = .buffer (List.replicate p.bufferSize 0) :=
    hinv'.returned _ (List.mem_of_mem_head? hreturned)
  exact ⟨s', hreach, hidle, hreturned⟩

/-- One thread puts two bytes of its own and another gets a buffer. -/
theorem bufferPool_reused :
    ∃ s : Guarded.State Bool (List Bytes) PoolBody PoolCall PoolResult,
      (PoolCall.get, PoolResult.buffer [0, 0]) ∈ s.returned ∧ s.value.length ≤ 1 := by
  let actions : List (Guarded.Action Bool PoolCall) :=
    [.call false (.put [7, 7]), .call true .get, .lock false, .access false, .access false,
      .lock true, .access true]
  obtain ⟨s, hrun, hget⟩ : ∃ s, Lts.run (Guarded.step (BufferPool.ops ⟨2, 1⟩)) (fun _ _ => True)
      (.start []) actions = some s ∧ (PoolCall.get, PoolResult.buffer [0, 0]) ∈ s.returned :=
    ⟨_, rfl, List.mem_cons_self ..⟩
  exact ⟨s, hget, (bufferPool_clean (Lts.Reach.start.run hrun)).2.2.1⟩

end Rperf3
