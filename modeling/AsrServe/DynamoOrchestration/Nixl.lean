import AsrServe.Reasoning.Dict

/-!
# The RDMA transfer manager (`dynamo-orchestration/src/nixl_rdma.py`)

`NixlTransferManager` piece by piece: each definition is what one of its methods does between two
suspension points, as a function on the manager.  The agent behind it is only known by the memory
regions registered with it.
-/

open AsrServe.Reasoning

namespace AsrServe.DynamoOrchestration

structure Region where
  device : Int
  ptr : Int
deriving DecidableEq, Repr

structure KVCacheDescriptor where
  handle : String
  srcDevice : Int
  srcPtr : Int
  tensorBytes : Int
  shape : List Int
  dtype : String
  ttlMs : Int := 500
deriving DecidableEq, Repr

def KVCacheDescriptor.region (desc : KVCacheDescriptor) : Region where
  device := desc.srcDevice
  ptr := desc.srcPtr

structure TransferStats where
  transfersInitiated : Nat := 0
  transfersCompleted : Nat := 0
  bytesTransferred : Int := 0
  errors : Nat := 0
deriving DecidableEq, Repr

/-! ## The agent -/

/-- A live fabric agent: the regions registered with it. -/
structure Agent where
  regions : List Region := []
deriving DecidableEq, Repr

def Agent.registerMemory (agent : Agent) (region : Region) : Agent where
  regions := agent.regions.insert region

def Agent.deregisterMemory (agent : Agent) (region : Region) : Agent where
  regions := agent.regions.filter (· ≠ region)

/-! ## The manager -/

structure NixlTransferManager where
  maxConcurrent : Nat := 64
  -- The value of the semaphore.
  permits : Nat := maxConcurrent
  descriptors : Dict String KVCacheDescriptor := Dict.empty
  -- `none` in stub mode.
  nixlAgent : Option Agent := none
  stats : TransferStats := {}

structure TensorArgs where
  device : Int
  ptr : Int
  bytesSize : Int
  shape : List Int
  dtype : String
  ttlMs : Int := 500
deriving DecidableEq, Repr

-- The descriptor `register_tensor` builds under a fresh handle.
def TensorArgs.descriptor (args : TensorArgs) (handle : String) : KVCacheDescriptor where
  handle := handle
  srcDevice := args.device
  srcPtr := args.ptr
  tensorBytes := args.bytesSize
  shape := args.shape
  dtype := args.dtype
  ttlMs := args.ttlMs

-- The tensor of the smoke test, at device pointer `ptr`.
def kvTensor (ptr : Int) : TensorArgs where
  device := 0
  ptr := ptr
  bytesSize := 4 * 1024 * 1024
  shape := [32, 2048, 128]
  dtype := "bfloat16"

namespace NixlTransferManager

/-- `register_tensor` up to its `await`: the descriptor enters the table. -/
def registerBegin (mgr : NixlTransferManager) (desc : KVCacheDescriptor) : NixlTransferManager :=
  { mgr with descriptors := mgr.descriptors.set desc.handle desc }

-- `register_memory` has returned.
def registerMemory (mgr : NixlTransferManager) (desc : KVCacheDescriptor) : NixlTransferManager :=
  { mgr with nixlAgent := mgr.nixlAgent.map (·.registerMemory desc.region) }

/-- A whole `register_tensor` that nothing interleaves with and nothing fails in. -/
def registerTensor (mgr : NixlTransferManager) (desc : KVCacheDescriptor) : NixlTransferManager :=
  (mgr.registerBegin desc).registerMemory desc

-- `transfer` has acquired the semaphore.
def transferBegin (mgr : NixlTransferManager) : NixlTransferManager :=
  { mgr with
    permits := mgr.permits - 1
    stats := { mgr.stats with transfersInitiated := mgr.stats.transfersInitiated + 1 } }

-- The rest of `transfer` once the data is there.
def transferEnd (mgr : NixlTransferManager) (desc : KVCacheDescriptor) : NixlTransferManager :=
  { mgr with
    permits := mgr.permits + 1
    stats :=
      { mgr.stats with
        transfersCompleted := mgr.stats.transfersCompleted + 1
        bytesTransferred := mgr.stats.bytesTransferred + desc.tensorBytes } }

-- The agent's `transfer` raised: the semaphore is released on the way out.
def transferRaise (mgr : NixlTransferManager) : NixlTransferManager :=
  { mgr with permits := mgr.permits + 1 }

-- `dst_ptr or 0xDEADBEEF`, the result in stub mode.
def stubResult (dstPtr : Option Int) : Int :=
  match dstPtr with
  | none => 0xDEADBEEF
  | some ptr => if ptr = 0 then 0xDEADBEEF else ptr

def evict (mgr : NixlTransferManager) (handle : String) : NixlTransferManager :=
  match mgr.descriptors.get? handle with
  | none => mgr
  | some desc =>
    { mgr with
      descriptors := mgr.descriptors.erase handle
      nixlAgent := mgr.nixlAgent.map (·.deregisterMemory desc.region) }

/-! ## The table under each piece -/

theorem get?_evict (mgr : NixlTransferManager) (handle j : String) :
    (mgr.evict handle).descriptors.get? j =
      if j = handle then none else mgr.descriptors.get? j := by
  unfold evict
  split
  · rename_i hnone
    split
    · rename_i hj
      rw [hj, hnone]
    · rfl
  · exact Dict.get?_erase ..

@[simp] theorem mem_evict (mgr : NixlTransferManager) (handle j : String) :
    j ∈ (mgr.evict handle).descriptors ↔ j ≠ handle ∧ j ∈ mgr.descriptors := by
  rw [Dict.mem_iff_exists, Dict.mem_iff_exists, get?_evict]
  split <;> simp_all

/-! ## What an eviction leaves alone -/

@[simp] theorem evict_stats (mgr : NixlTransferManager) (handle : String) :
    (mgr.evict handle).stats = mgr.stats := by
  unfold evict
  split <;> rfl

@[simp] theorem evict_permits (mgr : NixlTransferManager) (handle : String) :
    (mgr.evict handle).permits = mgr.permits := by
  unfold evict
  split <;> rfl

@[simp] theorem evict_maxConcurrent (mgr : NixlTransferManager) (handle : String) :
    (mgr.evict handle).maxConcurrent = mgr.maxConcurrent := by
  unfold evict
  split <;> rfl

end NixlTransferManager

end AsrServe.DynamoOrchestration
