/-
Cluster — where the clusters of a volume lie, and writes to the data region.

Clusters start behind the table and do not overlap, so a write to a cluster changes neither the
table (`readFatEntry_patch`) nor the chain of any file (`FileChain.patch`).
-/
import Nt61.Fs.Fat32.Volume

namespace Nt61.Fat32

open Lib

variable (fs : Fat32FileSystem)

def Fat32FileSystem.sectorsPerCluster : Nat := fs.clusterSize / SECTOR_SIZE

def Fat32FileSystem.firstSector (cluster : Nat) : Nat :=
  fs.dataStartSector + (cluster - 2) * fs.sectorsPerCluster

def clusterAddress (cluster : Nat) : Nat := dataAddress fs + (cluster - 2) * fs.clusterSize

lemma clusterSize_eq : fs.clusterSize = fs.sectorsPerCluster * SECTOR_SIZE :=
  (Nat.div_mul_cancel fs.clusterSize_dvd).symm

lemma sectorsPerCluster_pos : 0 < fs.sectorsPerCluster := by
  have hp := fs.clusterSize_pos
  rw [clusterSize_eq] at hp
  exact Nat.pos_of_mul_pos_right hp

lemma firstSector_address (cluster s : Nat) :
    (fs.firstSector cluster + s) * SECTOR_SIZE = clusterAddress fs cluster + s * SECTOR_SIZE := by
  unfold Fat32FileSystem.firstSector clusterAddress dataAddress
  rw [clusterSize_eq fs, Nat.add_mul, Nat.add_mul, Nat.mul_assoc]

/-! ## Writes to the data region -/

variable {fs : Fat32FileSystem} {d : Device}

/-- The device with the `n` bytes from `a` overwritten. -/
def Device.patch (d : Device) (a n : Nat) (src : Store) : Device :=
  { d with bytes := d.bytes.blit a n src }

def InCluster (fs : Fat32FileSystem) (cluster p : Nat) : Prop :=
  clusterAddress fs cluster ≤ p ∧ p < clusterAddress fs cluster + fs.clusterSize

lemma dataAddress_le_cluster (fs : Fat32FileSystem) (cluster : Nat) :
    dataAddress fs ≤ clusterAddress fs cluster := Nat.le_add_right _ _

lemma clusters_ordered (fs : Fat32FileSystem) {c c' : Nat} (hc : 2 ≤ c) (hc' : 2 ≤ c') (hne : c ≠ c') :
    clusterAddress fs c + fs.clusterSize ≤ clusterAddress fs c'
      ∨ clusterAddress fs c' + fs.clusterSize ≤ clusterAddress fs c := by
  unfold clusterAddress
  rcases Nat.lt_or_gt_of_ne hne with hlt | hlt
  · have hs : (c - 2 + 1) * fs.clusterSize ≤ (c' - 2) * fs.clusterSize :=
      Nat.mul_le_mul_right _ (by omega)
    rw [Nat.succ_mul] at hs
    omega
  have hs : (c' - 2 + 1) * fs.clusterSize ≤ (c - 2) * fs.clusterSize :=
    Nat.mul_le_mul_right _ (by omega)
  rw [Nat.succ_mul] at hs
  omega

lemma clusters_apart {c c' b : Nat} (hc : 2 ≤ c) (hc' : 2 ≤ c') (hne : c ≠ c')
    (hb : b < fs.clusterSize) : ¬ InCluster fs c' (clusterAddress fs c + b) := by
  have hor := clusters_ordered fs hc hc' hne
  unfold InCluster
  omega

lemma AllOk.patch (hd : AllOk d) (a n : Nat) (src : Store) : AllOk (d.patch a n src) :=
  hd.of_bytes _

lemma readFatEntry_patch (hl : Layout fs) (hd : AllOk d) {a n c : Nat} (src : Store)
    (ha : dataAddress fs ≤ a) (hc : c < fs.fatCapacity) :
    readFatEntry fs (d.patch a n src) c = readFatEntry fs d c := by
  have hbf := entryAddress_lt_data hl hc
  refine readFatEntry_congr hd (hd.patch a n src) fs ?_
  intro i hi
  exact Store.blit_outside _ _ (by omega)

lemma FileChain.patch (hl : Layout fs) (hd : AllOk d) {chain : List Nat}
    (h : FileChain fs d chain) {a : Nat} (n : Nat) (src : Store) (ha : dataAddress fs ≤ a) :
    FileChain fs (d.patch a n src) chain :=
  ⟨h.chain.congr fun c hc => readFatEntry_patch hl hd src ha (h.range c hc).2, h.nodup, h.range⟩

end Nt61.Fat32
