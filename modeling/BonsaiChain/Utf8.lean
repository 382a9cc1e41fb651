import BonsaiChain.Common

/-!
# UTF-8 validation

`utf8_is_valid` of `common/utf8.c` on a string that is not null.
-/

namespace BonsaiChain

def utf8IsValid : Bytes → Bool
  | [] => true
  | c :: rest =>
    if c ≤ 0x7f then utf8IsValid rest
    else if c &&& 0xe0 = 0xc0 then
      if c < 0xc2 then false
      else
        match rest with
        | c1 :: rest => if c1 &&& 0xc0 ≠ 0x80 then false else utf8IsValid rest
        | _ => false
    else if c &&& 0xf0 = 0xe0 then
      match rest with
      | c1 :: c2 :: rest =>
        if c1 &&& 0xc0 ≠ 0x80 ∨ c2 &&& 0xc0 ≠ 0x80 then false
        -- overlong
        else if c = 0xe0 ∧ c1 < 0xa0 then false
        -- surrogate
        else if c = 0xed ∧ c1 ≥ 0xa0 then false
        else utf8IsValid rest
      | _ => false
    else if c &&& 0xf8 = 0xf0 then
      if c > 0xf4 then false
      else
        match rest with
        | c1 :: c2 :: c3 :: rest =>
          if c1 &&& 0xc0 ≠ 0x80 ∨ c2 &&& 0xc0 ≠ 0x80 ∨ c3 &&& 0xc0 ≠ 0x80 then false
          -- overlong
          else if c = 0xf0 ∧ c1 < 0x90 then false
          -- above U+10FFFF
          else if c = 0xf4 ∧ c1 ≥ 0x90 then false
          else utf8IsValid rest
        | _ => false
    else false

end BonsaiChain
