import RelationalAlgebra.Text.CharSet

/-!
# Control characters

Characters that stand for no sign but steer how text is laid out.
-/
namespace RelationalAlgebra.Text.CharSet

/-- Control and format characters other than line ends and joiners. -/
def control : CharSet := ⟨[
  (0x0, 0x9), (0xb, 0xc), (0xe, 0x1f), (0x7f, 0x9f), (0xad, 0xad), (0x61c, 0x61c),
  (0x180e, 0x180e), (0x200b, 0x200b), (0x200e, 0x200f), (0x2028, 0x202e), (0x2060, 0x206f),
  (0xfeff, 0xfeff), (0xfff0, 0xfffb), (0x13430, 0x1343f), (0x1bca0, 0x1bca3), (0x1d173, 0x1d17a),
  (0xe0000, 0xe001f), (0xe0080, 0xe00ff), (0xe01f0, 0xe0fff)]⟩

end RelationalAlgebra.Text.CharSet
