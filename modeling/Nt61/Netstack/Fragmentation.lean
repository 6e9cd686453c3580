/-
Fragmentation — reassembly of IPv4 datagrams, `netstack/fragmentation.rs`.

A last fragment sets the total length also where fragments behind it are stored: their copy then
stops the program. Only expired buffers are dropped for a new one.
-/
import Mathlib.Data.List.Perm.Subperm
import Nt61.Lib.Bytes

namespace Nt61.Fragmentation

open Lib List

/-! ## The code -/

structure ReassemblyBuffer where
  /-- By increasing offset. -/
  fragments : List (Nat × Bytes)
  totalLength : Option Nat
  firstArrival : Nat

def insertFragment (offset : Nat) (data : Bytes) : List (Nat × Bytes) → List (Nat × Bytes)
  | [] => [(offset, data)]
  | f :: fs =>
    if offset < f.1 then (offset, data) :: f :: fs
    else if offset = f.1 then (offset, data) :: fs
    else f :: insertFragment offset data fs

/-- The loop of `is_complete`; `none` at a gap. -/
def coverage : Nat → List (Nat × Bytes) → Option Nat
  | covered, [] => some covered
  | covered, f :: fs => if covered < f.1 then none else coverage (max covered (f.1 + f.2.length)) fs

/-- Copy a fragment; `none` where the slice ends before it begins. -/
def copyFragment (totalLen : Nat) (result : Bytes) (f : Nat × Bytes) : Option Bytes :=
  let stop := min (f.1 + f.2.length) totalLen
  if f.1 ≤ stop then some (result.take f.1 ++ f.2.take (stop - f.1) ++ result.drop stop) else none

namespace ReassemblyBuffer

variable (b : ReassemblyBuffer)

/-- `none` if the buffer has 64 fragments. -/
def addFragment (offset : Nat) (data : Bytes) (isLast : Bool) : Option ReassemblyBuffer :=
  if 64 ≤ b.fragments.length then none
  else some { b with
    totalLength := if isLast then some (offset + data.length) else b.totalLength
    fragments := insertFragment offset data b.fragments }

def isComplete : Bool :=
  b.totalLength.any fun totalLen => (coverage 0 b.fragments).any (totalLen ≤ ·)

def reassemble : Option (Option Bytes) :=
  match b.totalLength with
  | none => some none
  | some totalLen => (b.fragments.foldlM (copyFragment totalLen) (replicate totalLen 0)).map some

def isExpired (now : Nat) : Bool := 60000 < now - b.firstArrival

end ReassemblyBuffer

structure ReassemblyKey where
  srcIp : UInt32
  dstIp : UInt32
  protocol : UInt8
  identification : UInt16
  deriving DecidableEq

abbrev Buffers := List (ReassemblyKey × ReassemblyBuffer)

def MAX_REASSEMBLY_BUFFERS : Nat := 32

def remove (buffers : Buffers) (key : ReassemblyKey) : Buffers := buffers.filter (·.1 ≠ key)

/-- The arguments of `process_fragment`, and the time of the call. -/
structure Packet where
  key : ReassemblyKey
  offset : UInt16
  moreFragments : Bool
  data : Bytes
  now : Nat

/-- The datagram, if it is complete; no result if the program stops. -/
def processFragment (buffers : Buffers) (p : Packet) : Option (Option Bytes × Buffers) :=
  let buffers := if MAX_REASSEMBLY_BUFFERS ≤ buffers.length
    then buffers.filter (!·.2.isExpired p.now) else buffers
  let buffer := (buffers.lookup p.key).getD ⟨[], none, p.now⟩
  match buffer.addFragment (p.offset.toNat * 8) p.data (!p.moreFragments) with
  | none => some (none, remove buffers p.key)
  | some buffer =>
    if buffer.isComplete then buffer.reassemble.map (·, remove buffers p.key)
    else some (none, (p.key, buffer) :: remove buffers p.key)

def step (buffers : Buffers) (p : Packet) : Option Buffers :=
  (processFragment buffers p).map Prod.snd

/-! ## Fragments of one datagram each -/

variable {total : ReassemblyKey → Nat} {keys : List ReassemblyKey} {buffers : Buffers}

structure Piece (totalLen : Nat) (p : Packet) : Prop where
  inside : p.offset.toNat * 8 + p.data.length ≤ totalLen
  last : p.moreFragments = false → p.offset.toNat * 8 + p.data.length = totalLen

structure Pieces (totalLen : Nat) (b : ReassemblyBuffer) : Prop where
  inside : ∀ f ∈ b.fragments, f.1 + f.2.length ≤ totalLen
  last : ∀ t ∈ b.totalLength, t = totalLen

structure Inv (total : ReassemblyKey → Nat) (keys : List ReassemblyKey) (buffers : Buffers) :
    Prop where
  nodup : (buffers.map Prod.fst).Nodup
  known : ∀ e ∈ buffers, e.1 ∈ keys
  pieces : ∀ e ∈ buffers, Pieces (total e.1) e.2

lemma mem_insertFragment {offset : Nat} {data : Bytes} {fs : List (Nat × Bytes)} {f : Nat × Bytes}
    (h : f ∈ insertFragment offset data fs) : f = (offset, data) ∨ f ∈ fs := by
  fun_induction insertFragment offset data fs <;> grind

lemma Pieces.add {p : Packet} {b b' : ReassemblyBuffer} {n : Nat} (h : Pieces n b) (hp : Piece n p)
    (had : b.addFragment (p.offset.toNat * 8) p.data (!p.moreFragments) = some b') :
    Pieces n b' := by
  unfold ReassemblyBuffer.addFragment at had
  split at had <;> cases had
  constructor
  · intro f hf
    rcases mem_insertFragment hf with rfl | hf
    · exact hp.inside
    · exact h.inside f hf
  intro t ht
  cases hmo : p.moreFragments <;> simp only [hmo] at ht
  · cases ht
    exact hp.last hmo
  · exact h.last t ht

lemma Pieces.reassemble {b : ReassemblyBuffer} {n : Nat} (h : Pieces n b) :
    ∃ r, b.reassemble = some r := by
  unfold ReassemblyBuffer.reassemble
  split
  · exact ⟨none, rfl⟩
  next totalLen htt =>
  cases h.last totalLen htt
  suffices hfo : ∀ fs : List (Nat × Bytes), (∀ f ∈ fs, f.1 + f.2.length ≤ n) →
      ∀ result, ∃ r, fs.foldlM (copyFragment n) result = some r by
    obtain ⟨r, hr⟩ := hfo _ h.inside (replicate n 0)
    exact ⟨some r, by rw [hr]; rfl⟩
  intro fs
  induction fs with
  | nil => exact fun _ result => ⟨result, rfl⟩
  | cons f fs ih =>
    intro hin result
    have hf := hin f mem_cons_self
    rw [foldlM_cons, copyFragment, if_pos (by omega)]
    exact ih (fun f hf => hin f (mem_cons_of_mem _ hf)) _

lemma Inv.filter (h : Inv total keys buffers) (keep : ReassemblyKey × ReassemblyBuffer → Bool) :
    Inv total keys (buffers.filter keep) where
  nodup := h.nodup.sublist (filter_sublist.map _)
  known e he := h.known e (mem_of_mem_filter he)
  pieces e he := h.pieces e (mem_of_mem_filter he)

lemma Inv.step (h : Inv total keys buffers) {p : Packet} (hp : Piece (total p.key) p)
    (hk : p.key ∈ keys) : ∃ buffers', step buffers p = some buffers' ∧ Inv total keys buffers' := by
  unfold Fragmentation.step processFragment
  generalize hb : (if MAX_REASSEMBLY_BUFFERS ≤ buffers.length
    then buffers.filter (!·.2.isExpired p.now) else buffers) = kept
  have hkp : Inv total keys kept := by
    rw [← hb]
    split
    · exact h.filter _
    · exact h
  have hrm := hkp.filter (·.1 ≠ p.key)
  have hbf : Pieces (total p.key) ((kept.lookup p.key).getD ⟨[], none, p.now⟩) := by
    cases hlk : kept.lookup p.key with
    | none => exact ⟨nofun, nofun⟩
    | some b =>
      obtain ⟨_, _, rfl, -⟩ := lookup_eq_some_iff.mp hlk
      exact hkp.pieces (p.key, b) (by simp)
  dsimp only
  split
  · exact ⟨_, rfl, hrm⟩
  next b had =>
  have hb := hbf.add hp had
  split
  · obtain ⟨_, hr⟩ := hb.reassemble
    exact ⟨_, by rw [hr]; rfl, hrm⟩
  refine ⟨_, rfl, ?_, ?_, ?_⟩
  · exact nodup_cons.mpr ⟨by simp [remove], hrm.nodup⟩
  · exact forall_mem_cons.mpr ⟨hk, hrm.known⟩
  · exact forall_mem_cons.mpr ⟨hb, hrm.pieces⟩

/-- Fragments that are pieces of at most 32 datagrams are put together without a stop. -/
theorem pieces_never_stop (total : ReassemblyKey → Nat) (keys : List ReassemblyKey)
    (hroom : keys.length ≤ MAX_REASSEMBLY_BUFFERS) (packets : List Packet)
    (hpackets : ∀ p ∈ packets, Piece (total p.key) p ∧ p.key ∈ keys) :
    ∃ buffers, packets.foldlM step [] = some buffers ∧ buffers.length ≤ MAX_REASSEMBLY_BUFFERS := by
  suffices h : ∀ buffers, Inv total keys buffers →
      ∃ buffers', packets.foldlM step buffers = some buffers' ∧ Inv total keys buffers' by
    obtain ⟨buffers, hr, hi⟩ := h [] ⟨nodup_nil, nofun, nofun⟩
    have hsb : buffers.map Prod.fst ⊆ keys := by
      intro key hk
      obtain ⟨e, he, rfl⟩ := mem_map.mp hk
      exact hi.known e he
    have hl := (subperm_of_subset hi.nodup hsb).length_le
    rw [length_map] at hl
    exact ⟨buffers, hr, hl.trans hroom⟩
  induction packets with
  | nil => exact fun buffers h => ⟨buffers, rfl, h⟩
  | cons p packets ih =>
    intro buffers h
    obtain ⟨hp, hrs⟩ := forall_mem_cons.mp hpackets
    obtain ⟨buffers1, hs, h1⟩ := h.step hp.1 hp.2
    rw [foldlM_cons, hs]
    exact ih hrs buffers1 h1

/-- The last fragment of ten bytes comes first; the other one covers a byte of it. -/
theorem overlapping_never_stop : ∃ buffers, [⟨⟨1, 2, 17, 0⟩, 1, false, [7, 8], 0⟩,
      ⟨⟨1, 2, 17, 0⟩, 0, true, replicate 9 0, 0⟩].foldlM step []
    = some buffers ∧ buffers.length ≤ MAX_REASSEMBLY_BUFFERS :=
  pieces_never_stop (fun _ => 10) [⟨1, 2, 17, 0⟩] (by decide) _ (forall_mem_cons.mpr
    ⟨⟨⟨by decide, fun _ => rfl⟩, by decide⟩,
      forall_mem_singleton.mpr ⟨⟨by decide, nofun⟩, by decide⟩⟩)

/-- A second last fragment before a stored one stops the program, and a 33rd datagram is kept. -/
theorem contradictory_last_stops :
    [⟨⟨1, 2, 17, 0⟩, 0, true, replicate 16 0, 0⟩, ⟨⟨1, 2, 17, 0⟩, 2, true, [0], 0⟩,
        ⟨⟨1, 2, 17, 0⟩, 1, false, [], 0⟩].foldlM step [] = none ∧ (((List.range 33).map fun i =>
          ⟨⟨1, 2, 17, UInt16.ofNat i⟩, 0, true, [], 0⟩).foldlM step []).map length = some 33 :=
  ⟨rfl, rfl⟩

end Nt61.Fragmentation
