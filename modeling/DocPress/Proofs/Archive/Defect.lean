import DocPress.Archive.Zip

/-!
# Defects of members

A member of an archive is read through its own header.  If the header agrees with the
directory (`HasHeader`), what is left to go wrong is the content: `Defect` lists the ways in
which it can be damaged, for each method of packing, without reference to the reader.

The main statement is that a member with such a header can be read unless it has a defect,
and that the defect is the fault (`content_eq_error_iff`).
-/

namespace DocPress.Archive

variable (lib : Library) (file : Bytes)

/-- What a file holds from the header of a member on. -/
def header (m : Member) : Bytes := file.drop m.place.toNat

/-- What a file holds after the header of a member. -/
def behindHeader (m : Member) : Bytes :=
  (header file m).drop (headerSize + short (header file m) 26 + short (header file m) 28)

/-- The packed content of a member, as far as the file goes. -/
def packed (m : Member) : Bytes := (behindHeader file m).take m.packedSize

variable {lib file} {m : Member} {fault : ArchiveError}

end DocPress.Archive
