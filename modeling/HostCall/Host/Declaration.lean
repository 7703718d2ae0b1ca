import HostCall.Host.Class

/-!
# Declaring classes

A class is declared one member after the other, with supertypes and members of all kinds in any
order. A draft takes each declaration in behind those of its kind.
-/

namespace HostCall

variable {σ : Type}

/-- One thing that a class declares. -/
inductive Declaration (σ : Type) where
  | supertype (name : String)
  | constructor (k : Constructor σ)
  | field (f : Field σ)
  | method (m : Method σ)

namespace Declaration

def supertype? : Declaration σ → Option String
  | supertype name => some name
  | _ => none

def constructor? : Declaration σ → Option (Constructor σ)
  | constructor k => some k
  | _ => none

def field? : Declaration σ → Option (Field σ)
  | field f => some f
  | _ => none

def method? : Declaration σ → Option (Method σ)
  | method m => some m
  | _ => none

end Declaration

namespace ClassDraft

def declare (d : ClassDraft σ) : Declaration σ → ClassDraft σ
  | .supertype name => { d with supertypes := d.supertypes ++ [name] }
  | .constructor k => { d with constructors := d.constructors ++ [k] }
  | .field f => { d with fields := d.fields ++ [f] }
  | .method m => { d with methods := d.methods ++ [m] }

/-- The draft of a class after some declarations. -/
def ofDeclarations (name native : String) (ds : List (Declaration σ)) : ClassDraft σ :=
  ds.foldl declare { name, native }

end ClassDraft

end HostCall
