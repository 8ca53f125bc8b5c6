import Spoils.Affix.RankRoll
import Spoils.Codec.Records
import Spoils.Main
import Spoils.Proofs.Mutation.Pipeline
import Spoils.Proofs.Affix.Body
import Spoils.Proofs.Affix.Counts
import Spoils.Proofs.Item.Droppable
import Spoils.Proofs.Mutation.Acceptance
import Spoils.Proofs.Roll.Drops
import Spoils.Proofs.Roll.Failure
import Spoils.Proofs.Roll.Granted
import Spoils.Proofs.Roll.Limits
import Spoils.Proofs.Roll.Restricted
import Spoils.Proofs.Roll.Preview
import Spoils.Proofs.Formula.Errors
import Spoils.Proofs.Formula.Hygiene
import Spoils.Proofs.Formula.Typing
import Spoils.Proofs.Mutation.Reports
import Spoils.Proofs.Affix.Keys
import Spoils.Proofs.Mutation.Affixes
import Spoils.Proofs.Roll.Drafted
import Spoils.Proofs.Roll.Around
import Spoils.Proofs.Roll.Isolation
import Spoils.Proofs.Roll.Effects
import Spoils.Proofs.Roll.Distinct
import Spoils.Proofs.Roll.Sound
import Spoils.Proofs.Roll.Attached
import Spoils.Proofs.Catalog.Cycles
import Spoils.Proofs.Catalog.Declared
import Spoils.Proofs.Catalog.Ancestry
import Spoils.Proofs.Mutation.Changes
import Spoils.Proofs.Roll.Ownership
import Spoils.Proofs.Item.Levels
import Spoils.Proofs.Roll.Levels
import Spoils.Proofs.Catalog.Intake
import Spoils.Proofs.Catalog.References
import Spoils.Proofs.Affix.Filling
import Spoils.Proofs.Roll.Nesting
import Spoils.Proofs.Item.Idempotence
import Spoils.Proofs.Affix.Minimum
import Spoils.Proofs.Mutation.Adding
import Spoils.Proofs.Mutation.Copying
import Spoils.Proofs.Item.Ranges
import Spoils.Proofs.Item.Rarities
import Spoils.Proofs.Formula.Conditions
import Spoils.Proofs.Formula.Integers
import Spoils.Proofs.Formula.Storing
import Spoils.Proofs.Formula.Frames
import Spoils.Proofs.Formula.Swapping
import Spoils.Proofs.Roll.Requirements
import Spoils.Proofs.Roll.Attempts
import Spoils.Proofs.Roll.Downgrades
import Spoils.Proofs.Picker.Proportion
import Spoils.Proofs.Picker.Draining
import Spoils.Proofs.Roll.Offers
import Spoils.Proofs.Mutation.Ranks
import Spoils.Proofs.Mutation.Evaluated
import Spoils.Proofs.Affix.RankRoll
import Spoils.Proofs.Audit
import Spoils.Proofs.Catalog.Walks
import Spoils.Proofs.Normalization
import Spoils.Proofs.Random.Signed
