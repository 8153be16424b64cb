import Ramryder.CreatePlan

/-! The memory `attach-mem` of the admin CLI asks for: the nodes of a tier a VM has already or
new ones, and an even share for each. -/
namespace Ramryder.AttachPlan
open Cli CreatePlan

/-- The nodes to choose from, and how many shares there are. -/
def selectAttachNodes (tierNodes : List MemPoolNode) (requestedChannels : ℤ)
    (existingVmNodes : List ℤ) (memoryName : String) : Raises (List MemPoolNode × ℤ) :=
  let existingNodesInTier :=
    (existingVmNodes.filter fun nid => decide (nid ∈ tierNodes.map MemPoolNode.nodeId)).insertionSort
      (· ≤ ·)
  if requestedChannels = 0 then
    if existingNodesInTier = [] then
      .error (.valueError s!"{memoryName} channels=0 requires existing allocated channels on this tier")
    else
      let selectedNodes := tierNodes.filter fun n => decide (n.nodeId ∈ existingNodesInTier)
      .ok (selectedNodes, selectedNodes.length)
  else if requestedChannels < 0 then
    .error (.valueError s!"{memoryName} channels must be >= 0")
  else
    let selectedNodes := tierNodes.filter fun n => decide (n.nodeId ∉ existingNodesInTier)
    if (selectedNodes.length : ℤ) < requestedChannels then
      .error (.valueError s!"{memoryName} channels ({requestedChannels}) must be <= available NEW channels ({selectedNodes.length})")
    else
      -- the top free channels for better fit
      let sorted := selectedNodes.insertionSort fun a b => a.freeMb ≥ b.freeMb
      .ok (sorted.take requestedChannels.toNat, requestedChannels)

def chooseAllocationsForTierAttach (tierNodes : List MemPoolNode)
    (requestedMemoryMb requestedChannels : ℤ) (existingVmNodes : List ℤ) (memoryName : String) :
    Raises (List (ℤ × ℤ)) :=
  if requestedMemoryMb ≤ 0 then .ok []
  else do
    let (selectedNodes, channelCount) ←
      selectAttachNodes tierNodes requestedChannels existingVmNodes memoryName
    raiseIf (requestedMemoryMb < channelCount) s!"{memoryName} memory is too small for selected channels"
    chooseAllocationsForTier selectedNodes (splitMemory requestedMemoryMb channelCount) memoryName

end Ramryder.AttachPlan
