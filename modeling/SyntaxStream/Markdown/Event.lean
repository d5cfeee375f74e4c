namespace SyntaxStream.Markdown

-- What a reader of a document is told, as far as code goes. Offsets count bytes.
inductive Event where
  | fenced (offset : Nat) (info : String)
  | indented (offset : Nat)
  | text (content : String)
  | codeEnd
  -- anything else a document is made of
  | other
deriving Repr, DecidableEq, Inhabited

end SyntaxStream.Markdown
