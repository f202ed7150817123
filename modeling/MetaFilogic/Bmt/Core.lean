import MetaFilogic.Bmt.Device

/-!
# Operations shared by the mapping back-ends

`bbt_nand_copy`, `write_bmt` and `mapping_block_in_range`.
-/

namespace MetaFilogic.Bmt

variable {μ : Type} (d : Desc)

/-- The pages of `bbt_nand_copy` from page `index` of the block on; `rest` counts
the pages still to do.  The write is given no spare bytes: `wr_ops.ooblen` is
set after the write it was meant for. -/
def bbtNandCopyFrom (dest src maxOffset : Nat) : (rest index : Nat) → BmtM μ Int
  | 0, _ => return 0
  | rest + 1, index => do
    if maxOffset ≤ index * d.pgSize then
      return 0
    else
      let (ret, _, source) ← readOob d (d.blkPg src + index) 1
      if ret < 0 ∧ !mtdIsBitflip ret then
        return ret
      else
        let ret ← writeOob d (d.blkPg dest + index) 1 fun flash page =>
          ⟨(source (d.blkPg src + index)).data, (flash page).oob, true⟩
        if ret < 0 then
          return ret
        else
          bbtNandCopyFrom dest src maxOffset rest (index + 1)

def bbtNandCopy (dest src maxOffset : Nat) : BmtM μ Int :=
  bbtNandCopyFrom d dest src maxOffset d.pages 0

def mappingBlockInRange (block : Nat) : Option (Nat × Nat) :=
  let addr := u32 (block <<< d.blkShift)
  if d.remapRange = [] then
    some (0, d.totalBlks)
  else
    d.remapRange.find? fun range => range.1 ≤ addr && addr < range.2

namespace KeepsMem

theorem bbtNandCopyFrom (dest src maxOffset rest index : Nat) :
    Preserves KeepsMem (@Bmt.bbtNandCopyFrom μ d dest src maxOffset rest index) := by
  induction rest generalizing index with
  | zero => exact .pure _
  | succ rest ih =>
    refine .ite (fun _ => .pure _) fun _ => (KeepsMem.readOob d _ 1).bind fun _ => ?_
    refine .ite (fun _ => .pure _) fun _ => (KeepsMem.writeOob d _ 1 _).bind fun _ => ?_
    exact .ite (fun _ => .pure _) fun _ => ih _

theorem bbtNandCopy (dest src maxOffset : Nat) :
    Preserves KeepsMem (@Bmt.bbtNandCopy μ d dest src maxOffset) :=
  bbtNandCopyFrom d dest src maxOffset _ _

end KeepsMem

end MetaFilogic.Bmt
