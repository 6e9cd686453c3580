/-
Model — `mm/page_cache.rs`: the cache of file pages.

A vector of slots that only grows, a map from page keys to slots, and a list of the slots in use,
the last used first; its links live in the slots. `none` is a panic. Whether a transfer moves a
whole page is an argument, and so is the order in which the hash map gives its entries.
-/
import Nt61.Lib.Checked

namespace Nt61.PageCache

open Lib

def PAGE_SIZE : Nat := 4096
def MAX_CACHE_PAGES : Nat := 32768
def MAX_ASYNC_IO_REQUESTS : Nat := 256

inductive EvictionPolicy where
  | lru
  | lfu
  | arc
  deriving DecidableEq

inductive PageState where
  | free
  | clean
  | dirty
  | reading
  | writing
  | locked
  deriving DecidableEq

structure PageKey where
  fileId : Nat
  pageIndex : Nat
  deriving DecidableEq

inductive AsyncIoOperation where
  | writeBack
  | readAhead
  deriving DecidableEq

structure AsyncIoRequest where
  operation : AsyncIoOperation
  key : PageKey
  pfn : Nat
  deriving DecidableEq

structure CachedPage where
  key : PageKey
  state : PageState
  refCount : Nat
  accessCount : Nat
  pfn : Nat
  lruPrev : Option Nat
  lruNext : Option Nat
  deriving DecidableEq

namespace CachedPage

def new (key : PageKey) (pfn : Nat) : CachedPage :=
  { key := key, state := .clean, refCount := 0, accessCount := 0, pfn := pfn, lruPrev := none,
    lruNext := none }

def isDirty (page : CachedPage) : Bool := page.state = .dirty

def isLocked (page : CachedPage) : Bool := decide (page.refCount > 0) || page.state = .locked

def canEvict (page : CachedPage) : Bool :=
  !page.isLocked && page.state ≠ .reading && page.state ≠ .writing

end CachedPage

end Nt61.PageCache

namespace Nt61

open Lib PageCache

structure PageCache where
  pages : List CachedPage
  pageMap : List (PageKey × Nat)
  lruHead : Option Nat
  lruTail : Option Nat
  policy : EvictionPolicy
  totalPages : Nat
  maxPages : Nat
  asyncIoQueue : List AsyncIoRequest
  deriving DecidableEq

namespace PageCache

def new (policy : EvictionPolicy) : PageCache :=
  { pages := [], pageMap := [], lruHead := none, lruTail := none, policy := policy, totalPages := 0,
    maxPages := MAX_CACHE_PAGES, asyncIoQueue := [] }

variable (c : PageCache)

variable (key : PageKey)

def get : Option Nat := (c.pageMap.find? fun entry => entry.1 = key).map Prod.snd

def removeKey : PageCache := { c with pageMap := c.pageMap.filter fun entry => entry.1 ≠ key }

variable (idx : Nat)

def modifyPage (change : CachedPage → CachedPage) : Option PageCache :=
  if idx < c.pages.length then some { c with pages := c.pages.modify idx change } else none

/-! ## The list of the slots in use -/

def addToLru : Option PageCache :=
  match c.lruHead with
  | none =>
    ({ c with lruHead := some idx, lruTail := some idx } : PageCache).modifyPage idx fun page =>
      { page with lruPrev := none, lruNext := none }
  | some head =>
    (c.modifyPage idx fun page => { page with lruPrev := none, lruNext := some head }).bind
    fun c => (c.modifyPage head fun page => { page with lruPrev := some idx }).map
    fun c => { c with lruHead := some idx }

/-- The slot before gets a new forward link; without one, the head changes. -/
def setNext (prev next : Option Nat) : Option PageCache :=
  match prev with
  | some p => c.modifyPage p fun page => { page with lruNext := next }
  | none => some { c with lruHead := next }

/-- The slot behind gets a new backward link; without one, the tail changes. -/
def setPrev (next prev : Option Nat) : Option PageCache :=
  match next with
  | some n => c.modifyPage n fun page => { page with lruPrev := prev }
  | none => some { c with lruTail := prev }

def removeFromLru : Option PageCache :=
  (c.pages[idx]?).bind fun page =>
  let prev := page.lruPrev
  let next := page.lruNext
  (c.setNext prev next).bind fun c =>
  (c.setPrev next prev).bind fun c =>
  c.modifyPage idx fun page => { page with lruPrev := none, lruNext := none }

def moveToLruHead : Option PageCache :=
  if c.lruHead = some idx then some c
  else (c.removeFromLru idx).bind fun c => c.addToLru idx

/-! ## Lookup -/

def touchPage : Option PageCache :=
  if idx ≥ c.pages.length then some c
  else
    (c.pages[idx]?).bind fun page =>
    (Checked.add 32 page.accessCount 1).bind fun accessCount =>
    (c.modifyPage idx fun page => { page with accessCount := accessCount }).bind fun c =>
    if c.policy = .lru ∨ c.policy = .arc then c.moveToLruHead idx else some c

def lookup : Option (Option Nat × PageCache) :=
  match c.get key with
  | some idx => (c.touchPage idx).map fun c => (some idx, c)
  | none => some (none, c)

def markDirty : PageCache :=
  if idx ≥ c.pages.length then c
  else { c with pages := c.pages.modify idx fun page => { page with state := .dirty } }

/-! ## Write-back -/

def writebackPage : Option (Except String Unit × PageCache) :=
  (c.pages[idx]?).bind fun page =>
  if ¬ page.isDirty then some (.ok (), c)
  else if c.asyncIoQueue.length ≥ MAX_ASYNC_IO_REQUESTS then
    (c.modifyPage idx fun page => { page with state := .dirty }).map fun c =>
      (.error "Async I/O queue full", c)
  else
    (c.modifyPage idx fun page => { page with state := .writing }).map fun c =>
      (.ok (), { c with asyncIoQueue := c.asyncIoQueue ++ [⟨.writeBack, page.key, page.pfn⟩] })

/-- The loop of `flush_all` and `flush_file` over the slots that are left. -/
def flushSlots (wanted : CachedPage → Bool) :
    List Nat → Nat → PageCache → Option (Except String Nat × PageCache)
  | [], flushed, c => some (.ok flushed, c)
  | idx :: rest, flushed, c =>
    (c.pages[idx]?).bind fun page =>
    if wanted page && page.isDirty then
      (c.writebackPage idx).bind fun
        | (.ok (), c) => flushSlots wanted rest (flushed + 1) c
        | (.error e, c) => some (.error e, c)
    else flushSlots wanted rest flushed c

def flushAll : Option (Except String Nat × PageCache) :=
  flushSlots (fun _ => true) (List.range c.pages.length) 0 c

def flushFile (fileId : Nat) : Option (Except String Nat × PageCache) :=
  flushSlots (fun page => page.key.fileId = fileId) (List.range c.pages.length) 0 c

/-! ## Eviction -/

/-- The walk of `evict_lru` from the end of the list, for at most so many slots. -/
def lruVictim : Nat → Option Nat → Option (Except String Nat)
  | _, none => some (.error "No evictable pages")
  | 0, some _ => none
  | fuel + 1, some idx =>
    (c.pages[idx]?).bind fun page =>
    if page.canEvict then some (.ok idx) else lruVictim fuel page.lruPrev

/-- A list without a cycle has at most as many slots as the vector. -/
def evictLru : Option (Except String Nat) := c.lruVictim c.pages.length c.lruTail

/-- The loop of `evict_lfu` over the slots from an index on. -/
def lfuVictim : List CachedPage → Nat → Nat → Option Nat → Option Nat
  | [], _, _, victim => victim
  | page :: rest, idx, minAccess, victim =>
    if page.canEvict && decide (page.accessCount < minAccess) then
      lfuVictim rest (idx + 1) page.accessCount (some idx)
    else lfuVictim rest (idx + 1) minAccess victim

def evictLfu : Except String Nat :=
  match lfuVictim c.pages 0 (2 ^ 32 - 1) none with
  | some victim => .ok victim
  | none => .error "No evictable pages"

def evictArc : Option (Except String Nat) :=
  c.evictLru.map fun
    | .ok victim => .ok victim
    | .error _ => c.evictLfu

def victim : Option (Except String Nat) :=
  match c.policy with
  | .lru => c.evictLru
  | .lfu => some c.evictLfu
  | .arc => c.evictArc

/-- What `evict_page` does with its victim once it need not be written any more. -/
def dropPage (victim : Nat) : Option PageCache :=
  (c.pages[victim]?).bind fun page =>
  ((c.removeKey page.key).removeFromLru victim).bind fun c =>
  ({ c with totalPages := (c.totalPages + 2 ^ 64 - 1) % 2 ^ 64 } : PageCache).modifyPage victim
    fun page => { page with state := .free }

def evictPage : Option (Except String Nat × PageCache) :=
  c.victim.bind fun
    | .error e => some (.error e, c)
    | .ok victim =>
      (c.pages[victim]?).bind fun page =>
      (if page.isDirty then c.writebackPage victim else some (.ok (), c)).bind fun
        | (.error e, c) => some (.error e, c)
        | (.ok (), c) => (c.dropPage victim).map fun c => (.ok victim, c)

/-- What `insert` does once there is room. -/
def addPage (pfn : Nat) : Option (Except String Nat × PageCache) :=
  let idx := c.pages.length
  (({ c with
      pages := c.pages ++ [CachedPage.new key pfn]
      pageMap := (key, idx) :: c.pageMap
      totalPages := (c.totalPages + 1) % 2 ^ 64 } : PageCache).addToLru idx).map fun c =>
    (.ok idx, c)

def insert (pfn : Nat) : Option (Except String Nat × PageCache) :=
  match c.get key with
  | some idx => some (.ok idx, c)
  | none =>
    if c.pages.length ≥ c.maxPages then
      c.evictPage.bind fun
        | (.error e, c) => some (.error e, c)
        | (.ok _, c) => c.addPage key pfn
    else c.addPage key pfn

/-- One round of `invalidate_file`. That a page cannot be written is ignored. -/
def invalidatePage (entry : PageKey × Nat) : Option PageCache :=
  (c.pages[entry.2]?).bind fun page =>
  (if page.isDirty then c.writebackPage entry.2 else some (.ok (), c)).bind fun (_, c) =>
  (c.removeFromLru entry.2).map fun c =>
    { c.removeKey entry.1 with totalPages := (c.totalPages + 2 ^ 64 - 1) % 2 ^ 64 }

def entriesOf (fileId : Nat) : List (PageKey × Nat) :=
  c.pageMap.filter fun entry => entry.1.fileId = fileId

/-- `toRemove` are the entries of the file, in the order the map gives them. -/
def invalidateFile (toRemove : List (PageKey × Nat)) : Option PageCache :=
  toRemove.foldlM invalidatePage c

/-! ## Queued transfers -/

def setState (state : PageState) : Option PageCache :=
  match c.get key with
  | some idx => c.modifyPage idx fun page => { page with state := state }
  | none => some c

/-- One queued transfer; `complete`: the disk moved the whole page. -/
def transfer (request : AsyncIoRequest) (complete : Bool) : Option PageCache :=
  (Checked.mul 64 request.key.pageIndex PAGE_SIZE).bind fun _ =>
  match request.operation with
  | .writeBack => c.setState request.key (if complete then .clean else .dirty)
  | .readAhead => c.setState request.key (if complete then .clean else .free)

/-- `disk i`: the outcome of the transfer number `i` of the call. -/
def processAsyncIo (disk : Nat → Bool) : Nat → Nat → PageCache → Option (Nat × PageCache)
  | 0, processed, c => some (processed, c)
  | left + 1, processed, c =>
    match c.asyncIoQueue with
    | [] => some (processed, c)
    | request :: rest =>
      (({ c with asyncIoQueue := rest } : PageCache).transfer request (disk processed)).bind
        fun c => processAsyncIo disk left (processed + 1) c

/-! ## Runs -/

inductive Op where
  | lookup (key : PageKey)
  | insert (key : PageKey) (pfn : Nat)
  | markDirty (idx : Nat)
  | flushAll
  | flushFile (fileId : Nat)
  | invalidateFile (fileId : Nat) (toRemove : List (PageKey × Nat))
  | processAsyncIo (maxRequests : Nat) (disk : Nat → Bool)

def step : Op → PageCache → Option PageCache
  | .lookup key, c => (c.lookup key).map Prod.snd
  | .insert key pfn, c => (c.insert key pfn).map Prod.snd
  | .markDirty idx, c => some (c.markDirty idx)
  | .flushAll, c => c.flushAll.map Prod.snd
  | .flushFile fileId, c => (c.flushFile fileId).map Prod.snd
  | .invalidateFile _ toRemove, c => c.invalidateFile toRemove
  | .processAsyncIo maxRequests disk, c => (processAsyncIo disk maxRequests 0 c).map Prod.snd

end PageCache

end Nt61
