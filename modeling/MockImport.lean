import MockImport.Tree.Read
import MockImport.Tree.Write
import MockImport.Value.Text
import MockImport.Expansion
import MockImport.Draft
import MockImport.Proofs.Acceptance
import MockImport.Proofs.InStep
import MockImport.Proofs.Hygiene
import MockImport.Proofs.Meaning
import MockImport.Proofs.Labels
import MockImport.Proofs.Declarations
import MockImport.Proofs.Idempotence
import MockImport.Proofs.Synthesis
import MockImport.Proofs.Registrations
import MockImport.Proofs.Equivariance
import MockImport.Proofs.IdleParentheses
import MockImport.Proofs.Untouched
import MockImport.Proofs.TextOrder
import MockImport.Proofs.NameSequences
import MockImport.Proofs.NameSearch
import MockImport.Proofs.Snippets
import MockImport.Proofs.IdentifierCharacters
import MockImport.Proofs.IdentifierNames
import MockImport.Proofs.JsonGrammar
import MockImport.Proofs.JsonReading
import MockImport.Proofs.JsonStrings
import MockImport.Proofs.OptionTexts
