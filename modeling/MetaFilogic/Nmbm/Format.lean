import MetaFilogic.Nmbm.Device

/-!
# On-flash structures as bytes

The signature and the info table are C structs behind a common header with a
size and a CRC-32.  This file lays them out byte for byte and has the checks
that need no access to the device.
-/

namespace MetaFilogic.Nmbm

open Bytes Crc32

def NMBM_MAGIC_SIGNATURE : BitVec 32 := 0x304d4d4e
def NMBM_MAGIC_INFO_TABLE : BitVec 32 := 0x314d4d4e

/-- `NMBM_VERSION_MAKE(NMBM_VER_MAJOR, NMBM_VER_MINOR)`. -/
def NMBM_VER : BitVec 32 := (1 &&& 0xffff) ||| ((0 &&& 0xffff) <<< 16)

/-- `sizeof(struct nmbm_header)`. -/
def headerSize : Nat := 16

/-- `sizeof(struct nmbm_signature)`, tail padding included. -/
def signatureSize : Nat := 48

def nmbmCrc32 (crcval : BitVec 32) (buf : List Byte) : BitVec 32 :=
  crc32Le crcval buf

def Header.bytes (header : Header) : List Byte :=
  le32 header.magic ++ le32 header.version ++ le32 header.size ++ le32 header.checksum

def Header.parse (data : List Byte) : Header :=
  ⟨get32 data 0, get32 data 4, get32 data 8, get32 data 12⟩

def Signature.bytes (signature : Signature) : List Byte :=
  signature.header.bytes ++ le64 signature.nandSize ++ le32 signature.blockSize ++
    le32 signature.pageSize ++ le32 signature.spareSize ++
    le32 signature.mgmtStartPb ++ [signature.maxTryCount] ++ fill 7 0

def Signature.parse (data : List Byte) : Signature where
  header := Header.parse data
  nandSize := get64 data 16
  blockSize := get32 data 24
  pageSize := get32 data 28
  spareSize := get32 data 32
  mgmtStartPb := get32 data 36
  maxTryCount := get8 data 40

def InfoTableHeader.bytes (table : InfoTableHeader) : List Byte :=
  table.header.bytes ++ le32 table.writeCount ++ le32 table.stateTableOff ++
    le32 table.mappingTableOff ++ le32 table.padding

def InfoTableHeader.parse (data : List Byte) : InfoTableHeader :=
  ⟨Header.parse data, get32 data 16, get32 data 20, get32 data 24, get32 data 28⟩

def checkHeader (data : List Byte) (size : Nat) : Bool :=
  let header := Header.parse data
  if header.size.toNat > size then
    false
  else
    let nhdr := { header with checksum := 0 }
    let newChecksum := nmbmCrc32 0 nhdr.bytes
    let newChecksum :=
      if header.size.toNat > headerSize then
        nmbmCrc32 newChecksum
          ((data.drop headerSize).take (header.size.toNat - headerSize))
      else newChecksum
    header.checksum == newChecksum

def updateChecksum (data : List Byte) : List Byte :=
  let cleared := patch data 12 (le32 0)
  let size := (Header.parse cleared).size.toNat
  patch cleared 12 (le32 (nmbmCrc32 0 (cleared.take size)))

/-! ## Info table images -/

section Image

variable (ld : LowerDevice)

/-- The buffer `nmbm_generate_info_table_cache` builds from the tables in
memory. -/
def infoTableImage (table : InfoTableHeader) (blockState blockMapping : Nat → BitVec 32) :
    List Byte :=
  let cache := fill ld.infoTableSize 0xff
  let cache := patch cache table.stateTableOff.toNat (words blockState ld.stateUnits)
  let cache := patch cache table.mappingTableOff.toNat
    (words blockMapping (ld.mappingTableSize / 4))
  let cache := patch cache 0 table.bytes
  updateChecksum cache

def imageState (image : List Byte) (unit : Nat) : BitVec 32 :=
  get32 image ((InfoTableHeader.parse image).stateTableOff.toNat + 4 * unit)

def imageMapping (image : List Byte) (lb : Nat) : BitVec 32 :=
  get32 image ((InfoTableHeader.parse image).mappingTableOff.toNat + 4 * lb)

def imageWriteCount (image : List Byte) : BitVec 32 :=
  (InfoTableHeader.parse image).writeCount

/-- `nmbm_check_info_table_header`; the subtractions are those of `uint32_t`. -/
def checkInfoTableHeader (data : List Byte) : Bool :=
  let ifthdr := InfoTableHeader.parse data
  if ifthdr.header.magic ≠ NMBM_MAGIC_INFO_TABLE then
    false
  else if ifthdr.header.size.toNat ≠ ld.infoTableSize then
    false
  else if (ifthdr.mappingTableOff - ifthdr.stateTableOff).toNat < ld.stateTableSize then
    false
  else if subU32 ld.infoTableSize ifthdr.mappingTableOff.toNat < ld.mappingTableSize then
    false
  else
    true

def ValidTable (image : List Byte) : Prop :=
  image.length = ld.infoTableSize ∧ checkInfoTableHeader ld image = true ∧
    checkHeader image ld.infoTableSize = true

instance (image : List Byte) : Decidable (ValidTable ld image) := by
  unfold ValidTable
  infer_instance

end Image

end MetaFilogic.Nmbm
