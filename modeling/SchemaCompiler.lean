import SchemaCompiler.Main
import SchemaCompiler.Proofs.Closure
import SchemaCompiler.Proofs.Fault
import SchemaCompiler.Proofs.Registration
import SchemaCompiler.Proofs.Modularity
import SchemaCompiler.Proofs.Replacement
import SchemaCompiler.Proofs.Collision
import SchemaCompiler.Proofs.Disk
import SchemaCompiler.Proofs.Overwriting
import SchemaCompiler.Proofs.ShallowFault
import SchemaCompiler.Proofs.LooseNode
import SchemaCompiler.Proofs.Agreement
import SchemaCompiler.Proofs.Presentation
import SchemaCompiler.Proofs.Coherence
import SchemaCompiler.Proofs.FileName
import SchemaCompiler.Proofs.Descriptor
import SchemaCompiler.Proofs.Sequence
import SchemaCompiler.Proofs.Scope
import SchemaCompiler.Proofs.Directory
import SchemaCompiler.Proofs.Pointer
import SchemaCompiler.Proofs.Footprint
import SchemaCompiler.Proofs.Repetition
import SchemaCompiler.Proofs.Composition
import SchemaCompiler.Proofs.Arrays
import SchemaCompiler.Proofs.Aliases
import SchemaCompiler.Proofs.Singular
import SchemaCompiler.Proofs.Accessor
import SchemaCompiler.Proofs.Title
import SchemaCompiler.Proofs.Outline
import SchemaCompiler.Proofs.Trailing
import SchemaCompiler.Proofs.Fallback
