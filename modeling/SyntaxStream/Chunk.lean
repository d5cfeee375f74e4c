namespace SyntaxStream.Chunk

-- Splits a text after each character with which a chunk has reached its size. The size counts
-- bytes; room is what the current chunk still lacks.
def chunksFrom (size room : Nat) (current : List Char) : List Char → List (List Char)
  | [] => if current.isEmpty then [] else [current.reverse]
  | c :: rest =>
    if room ≤ c.utf8Size then (c :: current).reverse :: chunksFrom size size [] rest
    else chunksFrom size (room - c.utf8Size) (c :: current) rest

-- The chunks of a text. Every chunk but the last is as short as it can be with that many bytes.
def split (text : String) (size : Nat) : List String :=
  (chunksFrom (max size 1) (max size 1) [] text.toList).map String.ofList

end SyntaxStream.Chunk
