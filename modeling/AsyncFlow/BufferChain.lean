import Mathlib.Algebra.GroupWithZero.Nat
import Mathlib.Data.List.Basic

/-!
# Buffers and buffer chains

A `Buffer` is a window of a byte vector, and a `BufferChain` is a vector of
buffers of which a prefix has been used up.  The used buffers are erased lazily,
and the chain counts its bytes apart from its buffers.  The main results describe
a chain by the bytes it still holds.
-/

namespace AsyncFlow

open List

abbrev Byte := UInt8

/-- A window of a byte vector. -/
structure Buffer where
  storage : List Byte
  offset : Nat
  size : Nat
  fits : offset + size ≤ storage.length
  deriving DecidableEq

namespace Buffer

def isEmpty (buffer : Buffer) : Bool :=
  buffer.size == 0

def view (buffer : Buffer) : List Byte :=
  (buffer.storage.drop buffer.offset).take buffer.size

def copy (view : List Byte) : Buffer where
  storage := view
  offset := 0
  size := view.length
  fits := by omega

def removePrefix (buffer : Buffer) (count : Nat) : Buffer :=
  if atLeast : buffer.size ≤ count then
    { buffer with
      offset := buffer.offset + buffer.size
      size := 0
      fits := buffer.fits }
  else
    { buffer with
      offset := buffer.offset + count
      size := buffer.size - count
      fits := by have := buffer.fits; omega }

@[simp]
theorem length_view (buffer : Buffer) : buffer.view.length = buffer.size := by
  have := buffer.fits
  rw [view, length_take, length_drop]
  omega

@[simp]
theorem view_copy (view : List Byte) : (copy view).view = view := by
  simp [Buffer.view, copy]

@[simp]
theorem size_copy (view : List Byte) : (copy view).size = view.length := rfl

theorem view_removePrefix (buffer : Buffer) (count : Nat) :
    (buffer.removePrefix count).view = buffer.view.drop count := by
  unfold removePrefix
  split
  · rename_i atLeast
    rw [drop_eq_nil_of_le (by simpa using atLeast)]
    simp [view]
  · rw [view, view, drop_take, drop_drop]

theorem size_removePrefix (buffer : Buffer) (count : Nat) :
    (buffer.removePrefix count).size = buffer.size - count := by
  rw [← length_view, view_removePrefix, length_drop, length_view]

end Buffer

structure BufferChain where
  buffers : List Buffer
  /-- The buffers before this one are used up. -/
  first : Nat
  totalBytes : Nat
  totalDirty : Bool
  deriving DecidableEq

namespace BufferChain

def new : BufferChain where
  buffers := []
  first := 0
  totalBytes := 0
  totalDirty := false

def remaining (chain : BufferChain) : List Buffer :=
  chain.buffers.drop chain.first

def contents (chain : BufferChain) : List Byte :=
  (chain.remaining.map Buffer.view).flatten

def pushBack (chain : BufferChain) (buffer : Buffer) : BufferChain :=
  if buffer.isEmpty then chain
  else
    { chain with
      totalBytes :=
        if chain.totalDirty then chain.totalBytes else chain.totalBytes + buffer.size
      buffers := chain.buffers ++ [buffer] }

def isEmpty (chain : BufferChain) : Bool :=
  decide (chain.buffers.length ≤ chain.first)

def ensureTotalClean (chain : BufferChain) : BufferChain :=
  if chain.totalDirty then
    { chain with
      totalBytes := (chain.remaining.map Buffer.size).sum
      totalDirty := false }
  else chain

def size (chain : BufferChain) : Nat :=
  chain.ensureTotalClean.totalBytes

def compactFront (chain : BufferChain) : BufferChain :=
  if chain.first = 0 then chain
  else if chain.buffers.length ≤ chain.first then { chain with buffers := [], first := 0 }
  else { chain with buffers := chain.buffers.drop chain.first, first := 0 }

def compactFrontIfNeeded (chain : BufferChain) : BufferChain :=
  if chain.buffers.length ≤ chain.first then { chain with buffers := [], first := 0 }
  else if 32 ≤ chain.first ∧ chain.buffers.length ≤ chain.first * 2 then chain.compactFront
  else chain

def clear (_ : BufferChain) : BufferChain :=
  new

def popFront (chain : BufferChain) : BufferChain :=
  match chain.buffers[chain.first]? with
  | none => chain
  | some front =>
    let chain := chain.ensureTotalClean
    { chain with
      totalBytes := chain.totalBytes - front.size
      first := chain.first + 1 }.compactFrontIfNeeded

/-- Bytes are removed from the front buffer, and the buffer when none is left. -/
def removePrefixRound (chain : BufferChain) (front : Buffer) (consumed : Nat) : BufferChain :=
  let trimmed :=
    { chain with
      buffers := chain.buffers.set chain.first (front.removePrefix consumed)
      totalBytes := chain.totalBytes - consumed }
  if (front.removePrefix consumed).isEmpty then
    { trimmed with first := trimmed.first + 1 }.compactFrontIfNeeded
  else trimmed

/-- The loop of `remove_prefix`; each round that goes on uses up a buffer. -/
def removePrefixLoop : Nat → BufferChain → Nat → BufferChain
  | 0, chain, _ => chain
  | rounds + 1, chain, count =>
    if count = 0 then chain
    else
      match chain.buffers[chain.first]? with
      | none => chain
      | some front =>
        let consumed := if count < front.size then count else front.size
        removePrefixLoop rounds (chain.removePrefixRound front consumed) (count - consumed)

def removePrefix (chain : BufferChain) (count : Nat) : BufferChain :=
  let chain := chain.ensureTotalClean
  removePrefixLoop chain.remaining.length chain count

def fillViews (chain : BufferChain) (limit : Nat) : List (List Byte) :=
  ((chain.remaining.filter (!·.isEmpty)).take limit).map Buffer.view

def fillViewsLoop : List Buffer → Nat → List Buffer
  | [], _ => []
  | buffer :: rest, room =>
    if room = 0 then []
    else if buffer.isEmpty then fillViewsLoop rest room
    else buffer :: fillViewsLoop rest (room - 1)

/-- What `size` returns as a `std::size_t`. -/
def returnedSize (chain : BufferChain) : BitVec 64 :=
  .ofNat 64 chain.size

/-- `mutateBuffers` is an access through the mutable `buffers()`. -/
inductive Operation
  | pushBack (buffer : Buffer)
  | popFront
  | removePrefix (count : Nat)
  | clear
  | size
  | fillViews (limit : Nat)
  | buffers
  | mutateBuffers (edit : List Buffer → List Buffer)

def operate (chain : BufferChain) : Operation → BufferChain
  | .pushBack buffer => chain.pushBack buffer
  | .popFront => chain.popFront
  | .removePrefix count => chain.removePrefix count
  | .clear => chain.clear
  | .size => chain.ensureTotalClean
  | .fillViews _ => chain
  | .buffers => chain.compactFront
  | .mutateBuffers edit =>
    { chain.compactFront with buffers := edit chain.compactFront.buffers, totalDirty := true }

/-! ### What a chain holds -/

structure Valid (chain : BufferChain) : Prop where
  inBounds : chain.first ≤ chain.buffers.length
  clean : chain.totalDirty = false
  counted : chain.totalBytes = chain.contents.length
  filled : ∀ buffer ∈ chain.remaining, buffer.size ≠ 0

structure Counted (chain : BufferChain) : Prop where
  inBounds : chain.first ≤ chain.buffers.length
  counted : chain.totalDirty = false → chain.totalBytes = chain.contents.length

structure Drops (chain : BufferChain) (count : Nat) (after : BufferChain) : Prop where
  isCounted : after.Counted
  clean : after.totalDirty = false
  contents : after.contents = chain.contents.drop count
  filled : (∀ buffer ∈ chain.remaining, buffer.size ≠ 0) →
    ∀ buffer ∈ after.remaining, buffer.size ≠ 0

def plainContents (active : List Buffer) : Operation → List Byte
  | .pushBack buffer => (active.map Buffer.view).flatten ++ buffer.view
  | .popFront => (active.tail.map Buffer.view).flatten
  | .removePrefix count => (active.map Buffer.view).flatten.drop count
  | .clear => []
  | .size | .fillViews _ | .buffers => (active.map Buffer.view).flatten
  | .mutateBuffers edit => ((edit active).map Buffer.view).flatten

structure IsByteList (chain : BufferChain) : Prop where
  contents : ∀ operation, (chain.operate operation).contents =
    plainContents chain.remaining operation
  size : chain.returnedSize = .ofNat 64 chain.contents.length
  views : ∀ limit, fillViewsLoop chain.remaining limit =
    (chain.remaining.filter (!·.isEmpty)).take limit
  /-- More rounds than `remove_prefix` has do nothing. -/
  ends : ∀ count more, removePrefixLoop (chain.remaining.length + more) chain.ensureTotalClean count =
    chain.removePrefix count

@[simp]
theorem contents_new : new.contents = [] := rfl

theorem valid_new : new.Valid :=
  ⟨Nat.le_refl 0, rfl, rfl, by simp [new, remaining]⟩

variable {chain middle after : BufferChain} {front buffer : Buffer} {rest : List Buffer}

theorem view_of_isEmpty (empty : buffer.isEmpty = true) : buffer.view = [] :=
  eq_nil_of_length_eq_zero (by simpa [Buffer.isEmpty] using empty)

theorem length_contents (chain : BufferChain) :
    chain.contents.length = (chain.remaining.map Buffer.size).sum := by
  simp [contents, length_flatten, Function.comp_def]

theorem compactFront_eq (chain : BufferChain) :
    chain.compactFront = { chain with buffers := chain.remaining, first := 0 } := by
  unfold compactFront remaining
  split
  · rename_i atStart
    rw [atStart, drop_zero, ← atStart]
  · split
    · rw [drop_eq_nil_of_le ‹_›]
    · rfl

theorem compactFrontIfNeeded_spec (chain : BufferChain) :
    chain.compactFrontIfNeeded.remaining = chain.remaining ∧
      chain.compactFrontIfNeeded.totalBytes = chain.totalBytes ∧
      chain.compactFrontIfNeeded.totalDirty = chain.totalDirty ∧
      chain.compactFrontIfNeeded.first ≤ chain.compactFrontIfNeeded.buffers.length := by
  unfold compactFrontIfNeeded
  split
  · rename_i used
    exact ⟨by rw [remaining, remaining, drop_eq_nil_of_le used, drop_nil], rfl, rfl, Nat.zero_le _⟩
  · split
    · rw [compactFront_eq]
      exact ⟨rfl, rfl, rfl, Nat.zero_le _⟩
    · exact ⟨rfl, rfl, rfl, by omega⟩

theorem ensureTotalClean_eq (counted : chain.Counted) : chain.ensureTotalClean =
    { chain with totalBytes := chain.contents.length, totalDirty := false } := by
  unfold ensureTotalClean
  split
  · rw [length_contents]
  · rename_i clean
    have clean : chain.totalDirty = false := by simpa using clean
    rw [← counted.counted clean, ← clean]

theorem Counted.clean (counted : chain.Counted) : chain.ensureTotalClean.Counted := by
  rw [ensureTotalClean_eq counted]
  exact ⟨counted.inBounds, fun _ => rfl⟩

theorem Counted.size_eq (counted : chain.Counted) : chain.size = chain.contents.length := by
  rw [size, ensureTotalClean_eq counted]

theorem contents_pushBack (inBounds : chain.first ≤ chain.buffers.length) (buffer : Buffer) :
    (chain.pushBack buffer).contents = chain.contents ++ buffer.view := by
  unfold pushBack
  split
  · rename_i empty
    rw [view_of_isEmpty empty, append_nil]
  · simp [contents, remaining, drop_append_of_le_length inBounds]

theorem Counted.pushBack (counted : chain.Counted) (buffer : Buffer) :
    (chain.pushBack buffer).Counted where
  inBounds := by
    unfold BufferChain.pushBack
    split
    · exact counted.inBounds
    · exact Nat.le_trans counted.inBounds (by simp)
  counted := by
    rw [contents_pushBack counted.inBounds, length_append, Buffer.length_view]
    unfold BufferChain.pushBack
    split
    · rename_i empty
      rw [beq_iff_eq.mp empty, Nat.add_zero]
      exact counted.counted
    · intro clean
      have clean : chain.totalDirty = false := clean
      simp [clean, counted.counted clean]

theorem contents_eq_cons (left : chain.remaining = front :: rest) :
    chain.contents = front.view ++ (rest.map Buffer.view).flatten := by
  rw [contents, left, map_cons, flatten_cons]

theorem remaining_eq_cons (atFirst : chain.buffers[chain.first]? = some front) :
    chain.remaining = front :: chain.buffers.drop (chain.first + 1) := by
  obtain ⟨inside, rfl⟩ := List.getElem?_eq_some_iff.mp atFirst
  exact drop_eq_getElem_cons inside

theorem remaining_eq_nil (atEnd : chain.buffers[chain.first]? = none) : chain.remaining = [] :=
  drop_eq_nil_of_le (getElem?_eq_none_iff.mp atEnd)

theorem removePrefixRound_spec (atFirst : chain.buffers[chain.first]? = some front)
    (consumed : Nat) : (chain.removePrefixRound front consumed).remaining =
        (if (front.removePrefix consumed).isEmpty then chain.buffers.drop (chain.first + 1)
        else front.removePrefix consumed :: chain.buffers.drop (chain.first + 1)) ∧
      (chain.removePrefixRound front consumed).totalBytes = chain.totalBytes - consumed ∧
      (chain.removePrefixRound front consumed).totalDirty = chain.totalDirty ∧
      (chain.removePrefixRound front consumed).first ≤
        (chain.removePrefixRound front consumed).buffers.length := by
  obtain ⟨inside, -⟩ := List.getElem?_eq_some_iff.mp atFirst
  unfold removePrefixRound
  split
  · rw [← drop_set_of_lt (Nat.lt_succ_self chain.first)]
    exact compactFrontIfNeeded_spec _
  · refine ⟨?_, rfl, rfl, by simpa using Nat.le_of_lt inside⟩
    rw [remaining, drop_eq_getElem_cons (by simpa using inside), getElem_set_self,
      drop_set_of_lt (Nat.lt_succ_self _)]

namespace Drops

theorem refl {count : Nat} (counted : chain.Counted) (clean : chain.totalDirty = false)
    (nothing : count = 0 ∨ chain.remaining = []) : Drops chain count chain :=
  ⟨counted, clean, by rcases nothing with rfl | none <;> simp [BufferChain.contents, *], id⟩

theorem trans {count more : Nat} (first : Drops chain count middle)
    (second : Drops middle more after) : Drops chain (count + more) after :=
  { second with
    contents := by rw [second.contents, first.contents, drop_drop]
    filled := fun filled => second.filled (first.filled filled) }

theorem of_front {consumed : Nat} (counted : chain.Counted) (clean : chain.totalDirty = false)
    (left : chain.remaining = front :: rest) (most : consumed ≤ front.size)
    (inBounds : after.first ≤ after.buffers.length)
    (total : after.totalBytes = chain.totalBytes - consumed)
    (dirty : after.totalDirty = chain.totalDirty)
    (now : after.remaining = if (front.removePrefix consumed).isEmpty then rest
      else front.removePrefix consumed :: rest) : Drops chain consumed after := by
  have holds : after.contents = chain.contents.drop consumed := by
    rw [contents_eq_cons left, drop_append_of_le_length (by simpa using most),
      ← Buffer.view_removePrefix, BufferChain.contents, now]
    split
    · rw [view_of_isEmpty ‹_›, nil_append]
    · rw [map_cons, flatten_cons]
  refine ⟨⟨inBounds, fun _ => ?_⟩, dirty.trans clean, holds, ?_⟩
  · rw [total, holds, counted.counted clean, length_drop]
  · rw [left, now]
    intro filled
    obtain ⟨_, old⟩ := forall_mem_cons.mp filled
    split
    · exact old
    · rename_i filled
      exact forall_mem_cons.mpr ⟨by simpa [Buffer.isEmpty] using filled, old⟩

theorem removePrefixRound {consumed : Nat} (counted : chain.Counted)
    (clean : chain.totalDirty = false) (atFirst : chain.buffers[chain.first]? = some front)
    (most : consumed ≤ front.size) :
    Drops chain consumed (chain.removePrefixRound front consumed) := by
  obtain ⟨now, total, dirty, inBounds⟩ := removePrefixRound_spec atFirst consumed
  exact .of_front counted clean (remaining_eq_cons atFirst) most inBounds total dirty now

theorem removePrefixLoop (rounds : Nat) (counted : chain.Counted)
    (clean : chain.totalDirty = false) (enough : chain.remaining.length ≤ rounds) (count : Nat) :
    Drops chain count (removePrefixLoop rounds chain count) ∧
      ∀ more, removePrefixLoop (rounds + more) chain count = removePrefixLoop rounds chain count := by
  induction rounds generalizing chain count with
  | zero =>
    have none : chain.remaining = [] := eq_nil_of_length_eq_zero (by omega)
    refine ⟨.refl counted clean (.inr none), fun more => ?_⟩
    have atEnd : chain.buffers[chain.first]? = Option.none :=
      getElem?_eq_none_iff.mpr (drop_eq_nil_iff.mp none)
    cases more <;> simp [BufferChain.removePrefixLoop, atEnd]
  | succ rounds ih =>
    simp only [Nat.add_right_comm rounds 1, BufferChain.removePrefixLoop]
    split
    · subst count
      exact ⟨.refl counted clean (.inl rfl), fun _ => rfl⟩
    · split
      · rename_i atEnd
        exact ⟨.refl counted clean (.inr (remaining_eq_nil atEnd)), fun _ => rfl⟩
      · rename_i front atFirst
        rw [remaining_eq_cons atFirst, length_cons] at enough
        split
        -- The count ends inside the front buffer.
        · rename_i less
          rw [Nat.sub_self]
          have drops := removePrefixRound counted clean atFirst (Nat.le_of_lt less)
          have stops : ∀ rounds (chain : BufferChain),
              BufferChain.removePrefixLoop rounds chain 0 = chain := fun rounds _ => by
            cases rounds <;> rfl
          simpa only [stops, implies_true, and_true] using drops
        -- The front buffer is used up.
        · rename_i atLeast
          have drops := removePrefixRound counted clean atFirst (Nat.le_refl front.size)
          have shorter : (chain.removePrefixRound front front.size).remaining.length ≤ rounds := by
            rw [(removePrefixRound_spec atFirst _).1,
              if_pos (by simp [Buffer.isEmpty, Buffer.size_removePrefix])]
            omega
          obtain ⟨dropsEnd, ends⟩ := ih drops.isCounted drops.clean shorter (count - front.size)
          refine ⟨?_, ends⟩
          have both := drops.trans dropsEnd
          rwa [Nat.add_sub_cancel' (Nat.not_lt.mp atLeast)] at both

end Drops

theorem Counted.removePrefix (counted : chain.Counted) (count : Nat) :
    Drops chain count (chain.removePrefix count) ∧ ∀ more,
      removePrefixLoop (chain.remaining.length + more) chain.ensureTotalClean count =
        chain.removePrefix count := by
  have cleaned := counted.clean
  rw [BufferChain.removePrefix]
  rw [ensureTotalClean_eq counted] at cleaned ⊢
  obtain ⟨drops, ends⟩ := Drops.removePrefixLoop _ cleaned rfl (Nat.le_refl _) count
  exact ⟨{ drops with }, ends⟩

theorem Counted.popFront (counted : chain.Counted) : chain.popFront.Counted ∧
    chain.popFront.contents = (chain.remaining.tail.map Buffer.view).flatten := by
  unfold BufferChain.popFront
  split
  · rename_i atEnd
    exact ⟨counted, by simp [contents, remaining_eq_nil atEnd]⟩
  · rename_i front atFirst
    have cleaned := counted.clean
    rw [ensureTotalClean_eq counted] at cleaned ⊢
    obtain ⟨now, total, dirty, inBounds⟩ := compactFrontIfNeeded_spec
      ⟨chain.buffers, chain.first + 1, chain.contents.length - front.size, false⟩
    have drops := Drops.of_front cleaned rfl (remaining_eq_cons atFirst) (Nat.le_refl front.size)
      inBounds total dirty (by rw [now, if_pos (by simp [Buffer.isEmpty,
        Buffer.size_removePrefix])]; rfl)
    exact ⟨drops.isCounted, by rw [contents, now, remaining_eq_cons atFirst]; rfl⟩

theorem Counted.operate (counted : chain.Counted) (operation : Operation) :
    (chain.operate operation).Counted ∧
      (chain.operate operation).contents = plainContents chain.remaining operation := by
  cases operation with
  | pushBack buffer => exact ⟨counted.pushBack buffer, contents_pushBack counted.inBounds buffer⟩
  | popFront => exact counted.popFront
  | removePrefix count =>
    obtain ⟨drops, -⟩ := counted.removePrefix count
    exact ⟨drops.isCounted, drops.contents⟩
  | clear => exact ⟨⟨Nat.le_refl 0, fun _ => rfl⟩, rfl⟩
  | size =>
    refine ⟨counted.clean, ?_⟩
    simp only [BufferChain.operate, ensureTotalClean_eq counted]
    rfl
  | fillViews => exact ⟨counted, rfl⟩
  | buffers =>
    simp only [BufferChain.operate, compactFront_eq]
    exact ⟨⟨Nat.zero_le _, counted.counted⟩, rfl⟩
  | mutateBuffers edit =>
    simp only [BufferChain.operate, compactFront_eq]
    exact ⟨⟨Nat.zero_le _, fun clean => by cases clean⟩, rfl⟩

theorem fillViewsLoop_eq (buffers : List Buffer) (room : Nat) :
    fillViewsLoop buffers room = (buffers.filter (!·.isEmpty)).take room := by
  induction buffers generalizing room with
  | nil => simp [fillViewsLoop]
  | cons buffer buffers ih => cases room <;> grind [fillViewsLoop]

theorem counted_foldl (operations : List Operation) : (operations.foldl operate new).Counted := by
  suffices keeps : ∀ chain : BufferChain, chain.Counted → (operations.foldl operate chain).Counted
    from keeps new ⟨Nat.le_refl 0, fun _ => rfl⟩
  induction operations with
  | nil => exact fun _ => id
  | cons operation operations ih => exact fun _ counted => ih _ (counted.operate operation).1

/-- After any operations a chain behaves as the list of its bytes, up to the range of
the number that `size` returns. -/
theorem chain_is_byte_list (operations : List Operation) :
    (operations.foldl operate new).IsByteList := by
  have counted := counted_foldl operations
  exact ⟨fun operation => (counted.operate operation).2, by rw [returnedSize, counted.size_eq],
    fillViewsLoop_eq _, fun count => (counted.removePrefix count).2⟩

/-- A chain of four times the same 2 ^ 62 bytes has the size zero. -/
theorem size_wraps_around : ∃ operations : List Operation,
    (operations.foldl operate new).contents.length = 18446744073709551616 ∧
      (operations.foldl operate new).returnedSize = 0 := by
  obtain ⟨view, length⟩ : ∃ view : List Byte, view.length = 4611686018427387904 :=
    ⟨List.replicate _ 0, length_replicate⟩
  have grows : ∀ pushes, ((List.replicate pushes (.pushBack (.copy view))).foldl operate
      new).contents.length = pushes * 4611686018427387904 := by
    intro pushes
    induction pushes with
    | zero => rfl
    | succ pushes ih =>
      rw [replicate_succ', foldl_append, foldl_cons, foldl_nil, ((counted_foldl _).operate _).2,
        plainContents, length_append, Buffer.view_copy, length, Nat.succ_mul, ← ih, contents]
  exact ⟨_, grows 4, by rw [returnedSize, (counted_foldl _).size_eq, grows 4]; rfl⟩

namespace Valid

section

variable (valid : chain.Valid)

include valid

theorem isCounted : chain.Counted :=
  ⟨valid.inBounds, fun _ => valid.counted⟩

theorem of_drops {count : Nat} (drops : Drops chain count after) : after.Valid :=
  ⟨drops.isCounted.inBounds, drops.clean, drops.isCounted.counted drops.clean,
    drops.filled valid.filled⟩

theorem isEmpty_iff : chain.isEmpty = true ↔ chain.contents = [] := by
  rw [isEmpty, decide_eq_true_iff]
  constructor
  · intro used
    rw [contents, remaining, drop_eq_nil_of_le used]
    rfl
  · intro nothing
    have none : chain.remaining = [] := by
      refine eq_nil_iff_forall_not_mem.mpr fun buffer inside => ?_
      have empty := flatten_eq_nil_iff.mp nothing _ (mem_map_of_mem inside)
      exact valid.filled buffer inside (by rw [← Buffer.length_view, empty]; rfl)
    exact drop_eq_nil_iff.mp none

theorem contents_pushBack (buffer : Buffer) :
    (chain.pushBack buffer).contents = chain.contents ++ buffer.view :=
  BufferChain.contents_pushBack valid.inBounds buffer

theorem pushBack (buffer : Buffer) : (chain.pushBack buffer).Valid := by
  have counted := valid.isCounted.pushBack buffer
  have clean : (chain.pushBack buffer).totalDirty = false := by
    unfold BufferChain.pushBack
    split <;> exact valid.clean
  refine ⟨counted.inBounds, clean, counted.counted clean, ?_⟩
  unfold BufferChain.pushBack
  split
  · exact valid.filled
  · rename_i filled
    intro other inside
    rw [remaining, drop_append_of_le_length valid.inBounds, mem_append, mem_singleton] at inside
    rcases inside with inside | rfl
    · exact valid.filled other inside
    · simpa [Buffer.isEmpty] using filled

theorem removePrefix (count : Nat) : (chain.removePrefix count).Valid :=
  valid.of_drops (valid.isCounted.removePrefix count).1

theorem contents_removePrefix (count : Nat) :
    (chain.removePrefix count).contents = chain.contents.drop count :=
  (valid.isCounted.removePrefix count).1.contents

theorem fillViews_eq (limit : Nat) :
    chain.fillViews limit = (chain.remaining.take limit).map Buffer.view := by
  have all : chain.remaining.filter (!·.isEmpty) = chain.remaining :=
    filter_eq_self.mpr fun buffer inside => by
      simpa [Buffer.isEmpty] using valid.filled buffer inside
  rw [fillViews, all]

theorem fillViews_isPrefix (limit : Nat) : (chain.fillViews limit).flatten <+: chain.contents := by
  refine ⟨((chain.remaining.drop limit).map Buffer.view).flatten, ?_⟩
  rw [valid.fillViews_eq, ← flatten_append, ← map_append, take_append_drop, contents]

theorem fillViews_ne_nil (holds : chain.isEmpty = false) {limit : Nat} (room : limit ≠ 0)
    : chain.fillViews limit ≠ [] := by
  have some : chain.remaining ≠ [] := by
    rw [remaining, Ne, drop_eq_nil_iff]
    simpa [isEmpty] using holds
  rw [valid.fillViews_eq, Ne, map_eq_nil_iff, take_eq_nil_iff]
  simp [room, some]

end

end Valid

end BufferChain

end AsyncFlow
