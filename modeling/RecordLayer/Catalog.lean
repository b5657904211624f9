import RecordLayer.Record

/-!
# Catalog

The records of an agent cluster: its users and their passphrases, its nodes, the jobs that run
on them with their versioned details, and the script files shipped to nodes; besides, the
record that says which migration has been applied.
-/

namespace RecordLayer.Catalog

/-- An account that owns jobs and passphrases.  The plain password is checked, never stored. -/
def user : Entity where
  table := "ra_users"
  fields := [
    { name := "id", kind := .int, identity := true },
    { name := "username", kind := .text, unique := "ra_users_username_unique_index",
      rules := "required,gte=3,lte=64" },
    { name := "password_digest", kind := .text, hidden := true },
    { name := "password", kind := .text, column := none, rules := "required", hidden := true },
    { name := "email", kind := .text, rules := "required,email" },
    { name := "is_active", kind := .bool },
    { name := "inserted_at", kind := .timestamp },
    { name := "updated_at", kind := .timestamp }]

/-- An access token issued to a user. -/
def userPassphrase : Entity where
  table := "ra_user_passphrases"
  fields := [
    { name := "id", kind := .int, identity := true },
    { name := "user_id", kind := .int, foreign := "fk_ra_user_passphrases_user_id",
      rules := "required" },
    { name := "passphrase", kind := .text,
      unique := "ra_user_passphrases_passphrase_unique_index", rules := "required,len=32" },
    { name := "inserted_at", kind := .timestamp }]

/-- A machine of the cluster, the master or a worker. -/
def node : Entity where
  table := "ra_nodes"
  fields := [
    { name := "id", kind := .int, identity := true },
    { name := "name", kind := .text, rules := "required,gte=3,lte=200" },
    { name := "code", kind := .text, unique := "ra_nodes_code_unique_index",
      rules := "required,gte=3,lte=200" },
    { name := "detail", kind := .optText },
    { name := "node_type", kind := .text, column := "type", rules := "oneof=master worker",
      key := "type" },
    { name := "inserted_at", kind := .timestamp },
    { name := "updated_at", kind := .timestamp }]

/-- A background job scheduled on a node. -/
def job : Entity where
  table := "ra_jobs"
  fields := [
    { name := "id", kind := .int, identity := true },
    { name := "node_id", kind := .int, foreign := "fk_ra_jobs_node_id", rules := "required" },
    { name := "source_user_id", kind := .optInt, foreign := "fk_ra_jobs_source_user_id" },
    { name := "inserted_at", kind := .timestamp }]

/-- A version of a job: what it runs, and before and after which other jobs. -/
def jobDetail : Entity where
  table := "ra_job_details"
  fields := [
    { name := "id", kind := .int, identity := true },
    { name := "node_id", kind := .int, foreign := "fk_ra_job_details_node_id",
      rules := "required" },
    { name := "job_id", kind := .int, foreign := "fk_ra_job_details_job_id",
      rules := "required" },
    { name := "source_user_id", kind := .optInt,
      foreign := "fk_ra_job_details_source_user_id" },
    { name := "code", kind := .text, rules := "required,gte=3,lte=64" },
    { name := "name", kind := .text, rules := "required,gte=3,lte=200" },
    { name := "job_type", kind := .text, column := "type",
      rules := "oneof=new_release start restart shutdown other", key := "type" },
    { name := "detail", kind := .optText },
    { name := "run_before", kind := .bool, key := "before" },
    { name := "before_jobs", kind := .optText },
    { name := "run_after", kind := .bool, key := "after" },
    { name := "after_jobs", kind := .optText },
    { name := "script_file", kind := .optText },
    { name := "script", kind := .optText },
    { name := "inserted_at", kind := .timestamp }]

/-- A script file shipped to a node, perhaps for a job. -/
def file : Entity where
  table := "ra_files"
  fields := [
    { name := "id", kind := .int, identity := true },
    { name := "node_id", kind := .int, foreign := "fk_ra_files_node_id" },
    { name := "parent_id", kind := .optInt, foreign := "fk_ra_files_parent_id" },
    { name := "job_id", kind := .optInt, foreign := "fk_ra_files_job_id" },
    { name := "dir", kind := .text, rules := "required" },
    { name := "file", kind := .text, rules := "required" },
    { name := "file_type", kind := .text, column := "type", rules := "oneof=master worker",
      key := "type" },
    { name := "inserted_at", kind := .timestamp },
    { name := "updated_at", kind := .timestamp }]

/-- The table that tracks applied migrations. -/
def migrationTable : String := "ra_migrations"

/-- An applied migration. -/
def migration : Entity where
  table := migrationTable
  fields := [
    { name := "id", kind := .int, identity := true },
    { name := "number", kind := .int },
    { name := "name", kind := .text },
    { name := "applied_at", kind := .timestamp }]

/-! ### New records -/

/-- An active account, not stored yet. -/
def newUser (username email : String) (now : Instant) : Record user :=
  (Record.empty user).put "username" (.text username)
    |>.put "email" (.text email)
    |>.put "is_active" (.bool true)
    |>.put "inserted_at" (.timestamp now)
    |>.put "updated_at" (.timestamp now)

def newUserPassphrase (userId : Int64) (passphrase : String) (now : Instant) :
    Record userPassphrase :=
  (Record.empty userPassphrase).put "user_id" (.int userId)
    |>.put "passphrase" (.text passphrase)
    |>.put "inserted_at" (.timestamp now)

/-- A worker. -/
def newNode (name code : String) (now : Instant) : Record node :=
  (Record.empty node).put "name" (.text name)
    |>.put "code" (.text code)
    |>.put "node_type" (.text "worker")
    |>.put "inserted_at" (.timestamp now)
    |>.put "updated_at" (.timestamp now)

def newJob (nodeId : Int64) (now : Instant) : Record job :=
  (Record.empty job).put "node_id" (.int nodeId)
    |>.put "inserted_at" (.timestamp now)

def newJobDetail (nodeId jobId : Int64) (code name : String) (now : Instant) :
    Record jobDetail :=
  (Record.empty jobDetail).put "node_id" (.int nodeId)
    |>.put "job_id" (.int jobId)
    |>.put "code" (.text code)
    |>.put "name" (.text name)
    |>.put "job_type" (.text "other")
    |>.put "inserted_at" (.timestamp now)

def newFile (nodeId : Int64) (dir file : String) (now : Instant) : Record Catalog.file :=
  (Record.empty Catalog.file).put "node_id" (.int nodeId)
    |>.put "dir" (.text dir)
    |>.put "file" (.text file)
    |>.put "file_type" (.text "worker")
    |>.put "inserted_at" (.timestamp now)
    |>.put "updated_at" (.timestamp now)

/-- The record of a migration file that has been applied. -/
def newMigration (number : Int64) (name : String) (now : Instant) : Record migration :=
  (Record.empty migration).put "number" (.int number)
    |>.put "name" (.text name)
    |>.put "applied_at" (.timestamp now)

end RecordLayer.Catalog
